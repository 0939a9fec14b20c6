import Patchbay.Network.Consumer
import Patchbay.Proofs.Budget.Admission

/-!
# `Proofs.Budget.Lease` — what a block remembers

Whoever holds a block writes to it and asks for other sizes of it, of a budget that others use meanwhile, so that any
of these may be refused. Beside the block runs a record of what was done: bytes laid over a stretch, and sizes granted
with the length before and after. The length is what the size granted last is charged with, and a position holds what
was written there last since it came into the length, so what was cut off never comes back.

## Contents
* `Deed`, `Mark`, `Lease`, `Lease.step`, `Lease.run` — a block in use, and the record of its past;
* `Lease.lastAsked?`, `Lease.lastByte?` — what the record tells of the length and of a position;
* `Lease.Remembers` — the block is as the record tells; `Remembers.start`, `Remembers.step`, `Remembers.run`;
* `Failure.Ragged`, `alloc_ragged_iff`, `resize_ragged_iff`, `pages_ragged_iff` — sizes without a charge;
* `alloc_of_fits`, `Network.pages_granted`, `Network.size_of_pages` — what is granted; `lease_exact`.
-/

namespace Patchbay

namespace Budget

/-! ## A block in use -/

/-- What the holder of a block does with it. -/
inductive Deed where
  | write (start : Nat) (data : List UInt8)
  /-- Another size is asked for, of the budget as it stands by then. -/
  | resize (b : Budget) (heap : Heap) (lane : Lane) (size : Nat)

/-- What is recorded of it. -/
inductive Mark where
  | wrote (start : Nat) (data : List UInt8)
  /-- A size was granted, and the length changed with it. -/
  | sized (asked before after : Nat)

namespace Mark

/-- The size that was granted. -/
def asked? : Mark → Option Nat
  | .wrote .. => none
  | .sized asked _ _ => some asked

/-- The byte that was written at a position. -/
def byte? (i : Nat) : Mark → Option UInt8
  | .wrote start data => if start ≤ i then data[i - start]? else none
  | .sized .. => none

/-- Says whether a position came into the length. -/
def brings (i : Nat) : Mark → Bool
  | .wrote .. => false
  | .sized _ before after => before ≤ i && i < after

/-- The size that was granted last. -/
def lastAsked? (past : List Mark) : Option Nat :=
  past.findSome? asked?

/-- What was done since a position came into the length. -/
def since (i : Nat) (past : List Mark) : List Mark :=
  past.takeWhile fun mark => !mark.brings i

/-- The byte that was written last at a position since it came into the length. -/
def lastByte? (i : Nat) (past : List Mark) : Option UInt8 :=
  (since i past).findSome? (byte? i)

variable (past : List Mark) {asked before after i : Nat}

/-- What is written elsewhere says nothing of a byte. -/
theorem byte?_of_not_reached {start : Nat} {data : List UInt8} (h : ¬ (start ≤ i ∧ i < start + data.length)) :
    byte? i (.wrote start data) = none := by
  rw [byte?]
  split
  · refine List.getElem?_eq_none ?_
    omega
  · rfl

/-- The latest that was written to a byte counts. -/
theorem lastByte?_wrote (i start : Nat) (data : List UInt8) :
    lastByte? i (.wrote start data :: past) = (byte? i (.wrote start data)).or (lastByte? i past) := by
  unfold lastByte? since
  rw [List.takeWhile_cons_of_pos rfl, List.findSome?_cons]
  cases byte? i (.wrote start data) <;> rfl

/-- A position that was in the length already keeps its byte. -/
theorem lastByte?_sized_of_lt (h : i < before) :
    lastByte? i (.sized asked before after :: past) = lastByte? i past := by
  have hstays : (!(sized asked before after).brings i) = true := by
    simp only [brings, Bool.not_eq_true', Bool.and_eq_false_iff, decide_eq_false_iff_not]
    omega
  unfold lastByte? since
  rw [List.takeWhile_cons_of_pos (by exact hstays)]
  rfl

/-- Nothing was written yet at a position that came into the length just now. -/
theorem lastByte?_sized_of_le (h : before ≤ i) (hi : i < after) :
    lastByte? i (.sized asked before after :: past) = none := by
  have hcame : ¬ (!(sized asked before after).brings i) = true := by
    simp [brings, h, hi]
  unfold lastByte? since
  rw [List.takeWhile_cons_of_neg (by exact hcame)]
  rfl

end Mark

/-- A block that is out, and the record of its past with the newest first. -/
structure Lease where
  block : Block
  past : List Mark

namespace Lease

/-- A block as it was granted. -/
def start (asked : Nat) (block : Block) : Lease :=
  ⟨block, [.sized asked 0 block.size]⟩

/-- One deed; a size that is refused is not recorded. -/
def step (l : Lease) : Deed → Lease
  | .write start data => ⟨l.block.write start data, .wrote start data :: l.past⟩
  | .resize b heap lane size =>
    match (b.resize heap lane l.block size).1 with
    | .ok block => ⟨block, .sized size l.block.size block.size :: l.past⟩
    | .error _ => l

/-- Deeds one after another. -/
def run (l : Lease) (deeds : List Deed) : Lease :=
  deeds.foldl step l

/-! ## The block is as the record tells -/

/-- The length is what the size granted last is charged with, and each position holds what was written there last, or
zero. -/
structure Remembers (kind : Kind) (l : Lease) : Prop where
  kind_eq : l.block.kind = kind
  length : ∃ asked, Mark.lastAsked? l.past = some asked ∧ IsCharge kind asked l.block.size
  bytes : ∀ i < l.block.size, l.block.bytes[i]? = some ((Mark.lastByte? i l.past).getD 0)

namespace Remembers

variable {kind : Kind} {l : Lease}

/-- A fresh block is all zeros. -/
theorem start {block : Block} {asked n : Nat} (hn : IsCharge kind asked n) (hkind : block.kind = kind)
    (hcontents : block.contents = .zeroed n) : Remembers kind (Lease.start asked block) := by
  have hsize : block.size = n := by
    rw [Block.size, hcontents, Contents.size_zeroed]
  refine ⟨hkind, ⟨asked, rfl, hsize ▸ hn⟩, fun i hi => ?_⟩
  have hlast : Mark.lastByte? i (Lease.start asked block).past = none :=
    Mark.lastByte?_sized_of_le [] (Nat.zero_le i) hi
  have hi' : i < n := hsize ▸ hi
  rw [hlast, Lease.start, Block.bytes, hcontents, Contents.toList_zeroed,
    List.getElem?_replicate, if_pos hi']
  rfl

/-- A block remembers what is written to it. -/
theorem write (h : Remembers kind l) (start : Nat) (data : List UInt8) :
    Remembers kind (l.step (.write start data)) := by
  have hsize : (l.block.write start data).size = l.block.size := Contents.size_write _ start data
  refine ⟨h.kind_eq, ?_, fun i hi => ?_⟩
  · obtain ⟨asked, hasked, hcharge⟩ := h.length
    exact ⟨asked, hasked, hsize.symm ▸ hcharge⟩
  · have hi' : i < l.block.size := hsize ▸ hi
    have hold := h.bytes i hi'
    have hlength : l.block.contents.toList.length = l.block.size := Contents.length_toList _
    rw [step, Mark.lastByte?_wrote, Block.bytes, Block.write, Contents.toList_write, getElem?_overlay, hlength]
    -- what is written beyond the end does not matter, as the position is within
    by_cases hreach : start ≤ i ∧ i < start + data.length
    · have hat : i - start < data.length := by omega
      rw [if_pos ⟨hreach.1, hreach.2, hi'⟩, Mark.byte?, if_pos hreach.1, List.getElem?_eq_getElem hat]
      rfl
    · rw [if_neg fun hcover => hreach ⟨hcover.1, hcover.2.1⟩, Mark.byte?_of_not_reached hreach]
      exact hold

/-- It remembers what it still has room for when it is resized. -/
theorem resize (h : Remembers kind l) (b : Budget) (heap : Heap) (lane : Lane) (size : Nat) :
    Remembers kind (l.step (.resize b heap lane size)) := by
  rcases resize_cases heap b lane l.block size with ⟨e, hr⟩ | ⟨n, hn, b', hr, -⟩
  · simp only [step, hr]
    exact h
  · have hsize : ({ l.block with contents := l.block.contents.resize n } : Block).size = n :=
      Contents.size_resize l.block.contents n
    simp only [step, hr]
    refine ⟨h.kind_eq, ⟨size, rfl, ?_⟩, fun i hi => ?_⟩
    · rw [hsize, ← h.kind_eq]
      exact chargedSize_ok_iff.1 hn
    · rw [hsize] at hi ⊢
      have hlength : (l.block.contents.toList.take n).length = min n l.block.size := by
        rw [List.length_take, Contents.length_toList]
        rfl
      rw [Block.bytes, Contents.toList_resize, List.getElem?_append, hlength]
      -- a position that was in the length already keeps its byte, any other comes in as zero
      by_cases hold : i < l.block.size
      · rw [Mark.lastByte?_sized_of_lt _ hold, if_pos (by omega), List.getElem?_take, if_pos hi]
        exact h.bytes i hold
      · rw [Mark.lastByte?_sized_of_le _ (Nat.le_of_not_lt hold) hi, if_neg (by omega), List.getElem?_replicate,
          if_pos (by simp only [Block.size] at hold ⊢; omega)]
        rfl

/-- So it does with every deed. -/
theorem step (h : Remembers kind l) (d : Deed) : Remembers kind (l.step d) := by
  cases d with
  | write start data => exact h.write start data
  | resize b heap lane size => exact h.resize b heap lane size

/-- And through a run of them. -/
theorem run (h : Remembers kind l) (deeds : List Deed) : Remembers kind (l.run deeds) := by
  -- on the deeds, for any lease that is as its record tells
  induction deeds generalizing l with
  | nil => exact h
  | cons d rest ih => exact ih (h.step d)

end Remembers

end Lease

/-! ## Sizes that no pages hold -/

/-- No whole number of pages is a size and holds as much. -/
def HasNoPages (size : Nat) : Prop :=
  ∀ pages, size ≤ pages → pageSize ∣ pages → sizeBound ≤ pages

/-- A refusal for want of memory that is no whole number of pages. What has a charge is refused for whole pages, so this
one was refused because there is no charge. -/
def Failure.Ragged : Failure → Prop
  | .exhausted requested => ¬ pageSize ∣ requested
  | _ => False

theorem not_isCharge_iff {size : Nat} : (¬ ∃ n, IsCharge .contiguous size n) ↔ HasNoPages size := by
  constructor
  · intro h pages hle hdvd
    cases hpages : wholePages? size with
    | none => exact wholePages?_eq_none hpages hle hdvd
    | some n => exact absurd ⟨n, isLeast_wholePages hpages⟩ h
  · rintro h ⟨n, ⟨hle, hdvd, hlt⟩, -⟩
    exact absurd (h n hle hdvd) (Nat.not_le.2 hlt)

/-- A size that no pages hold is no whole number of pages itself. -/
theorem HasNoPages.not_dvd {size : Nat} (h : HasNoPages size) (hsize : size < sizeBound) : ¬ pageSize ∣ size :=
  fun hdvd => absurd (h size (Nat.le_refl size) hdvd) (Nat.not_le.2 hsize)

section Refusals

variable {b : Budget} {heap : Heap} {lane : Lane} {size n : Nat}

/-- Only the system allocator's refusal tells of exhaustion, and it tells what was asked of it. -/
theorem eq_of_answerOf {granted : Bool} {kind : Kind} {r m : Nat}
    (h : answerOf granted n (b.reserve kind lane m).1 = .error (.exhausted r)) : r = n := by
  cases ha : (b.reserve kind lane m).1 with
  | error e =>
    rw [ha] at h
    cases h
    obtain ⟨held, hheld⟩ := reserve_error ha
    cases hheld
  | ok u =>
    rw [ha] at h
    cases granted
    · cases h
      rfl
    · cases h

/-- Where whole pages are charged for, nothing is refused as ragged. -/
theorem not_ragged_of_answerOf {granted : Bool} {kind : Kind} {m : Nat} {e : Failure} (hn : pageSize ∣ n)
    (h : answerOf granted n (b.reserve kind lane m).1 = .error e) : ¬ e.Ragged := by
  intro hragged
  cases e with
  | exhausted r =>
    obtain rfl := eq_of_answerOf h
    exact hragged hn
  | outOfMemory => exact hragged
  | poolExhausted => exact hragged

theorem bare_error {answer : Except Failure Block} {e : Failure} (h : answer = .error e) : bare answer = .error e := by
  rw [h]
  rfl

/-- A size that no whole pages hold is refused as it was asked for, and the budget is not touched. -/
theorem alloc_uncharged {comment : Option String} (h : HasNoPages size) :
    b.alloc heap .contiguous lane comment size = (.error (.exhausted size), b) := by
  rw [alloc, chargedSize_error (not_isCharge_iff.2 h)]

/-- So is such a size when a block is resized. -/
theorem resize_uncharged {block : Block} (hkind : block.kind = .contiguous) (h : HasNoPages size) :
    b.resize heap lane block size = (.error (.exhausted size), b) := by
  rw [resize, hkind, chargedSize_error (not_isCharge_iff.2 h)]

/-- Just such sizes are refused as ragged. -/
theorem alloc_ragged_iff (comment : Option String) (hsize : size < sizeBound) :
    (∃ e, (b.alloc heap .contiguous lane comment size).1 = .error e ∧ e.Ragged) ↔ HasNoPages size := by
  constructor
  · rintro ⟨e, he, hragged⟩
    refine not_isCharge_iff.1 fun ⟨n, hn⟩ => ?_
    have hanswer := bare_error he
    rw [bare_alloc hn] at hanswer
    exact not_ragged_of_answerOf hn.1.2.1 hanswer hragged
  · intro h
    exact ⟨.exhausted size, by rw [alloc_uncharged h], h.not_dvd hsize⟩

theorem resize_ragged_iff {block : Block} (hkind : block.kind = .contiguous) (hpages : pageSize ∣ block.size)
    (hsize : size < sizeBound) :
    (∃ e, (b.resize heap lane block size).1 = .error e ∧ e.Ragged) ↔ HasNoPages size := by
  constructor
  · rintro ⟨e, he, hragged⟩
    refine not_isCharge_iff.1 fun ⟨n, hn⟩ => ?_
    rw [← hkind] at hn
    by_cases hgrows : block.size < n
    · -- what has a charge is refused for the growth, which is whole pages as both lengths are
      have hanswer := bare_error he
      rw [bare_resize hn hgrows] at hanswer
      rw [hkind] at hn
      exact not_ragged_of_answerOf (Nat.dvd_sub hn.1.2.1 hpages) hanswer hragged
    · have hok : bare (b.resize heap lane block size).1 = .ok () := resize_ok hn (Nat.le_of_not_lt hgrows) lane
      rw [bare_error he] at hok
      cases hok
  · intro h
    exact ⟨.exhausted size, by rw [resize_uncharged hkind h], h.not_dvd hsize⟩

end Refusals

/-! ## What is granted -/

/-- What a budget lets through is granted if the system allocator has it. -/
theorem alloc_of_fits {b : Budget} {heap : Heap} {kind : Kind} {lane : Lane} {size n : Nat} (comment : Option String)
    (hn : IsCharge kind size n) (hfits : Fits b kind lane n) (hheap : heap.has n = true) :
    ∃ block, (b.alloc heap kind lane comment size).1 = .ok block := by
  have hanswer : bare (b.alloc heap kind lane comment size).1 = .ok () := by
    rw [bare_alloc hn, reserve_of_fits hfits, hheap]
    rfl
  cases ha : (b.alloc heap kind lane comment size).1 with
  | error e =>
    rw [bare_error ha] at hanswer
    cases hanswer
  | ok block => exact ⟨block, rfl⟩

/-- Whole pages are their own charge. -/
theorem isCharge_pages {count : Nat} (h : count * pageSize < sizeBound) :
    IsCharge .contiguous (count * pageSize) (count * pageSize) :=
  ⟨⟨Nat.le_refl _, Nat.dvd_mul_left _ _, h⟩, fun _ hother => hother.1⟩

/-- A granted block is of the kind that was asked for, as long as the charge, and all zeros. -/
theorem alloc_fresh {b : Budget} {heap : Heap} {kind : Kind} {lane : Lane} {comment : Option String} {size : Nat}
    {block : Block} (h : (b.alloc heap kind lane comment size).1 = .ok block) :
    ∃ n, IsCharge kind size n ∧ block.kind = kind ∧ block.contents = .zeroed n := by
  rcases alloc_cases heap b kind lane comment size with ⟨e, hr⟩ | ⟨n, hn, -, hr⟩
  · rw [hr] at h
    cases h
  · rw [hr] at h
    cases h
    exact ⟨n, chargedSize_ok_iff.1 hn, rfl, rfl⟩

/-- A block that is granted remembers from then on. -/
theorem Lease.remembers_run {b : Budget} {heap : Heap} {kind : Kind} {lane : Lane} {comment : Option String}
    {asked : Nat} {block : Block} (h : (b.alloc heap kind lane comment asked).1 = .ok block) (deeds : List Deed) :
    ((Lease.start asked block).run deeds).Remembers kind := by
  obtain ⟨n, hn, hkind, hcontents⟩ := alloc_fresh h
  exact (Lease.Remembers.start hn hkind hcontents).run deeds

end Budget

namespace Network

open Budget

variable {n : Network} {key count : Nat}

/-- Pages that can be counted are asked of the splice's budget. -/
theorem pages_eq {b : Budget} (hb : n.memory.budgets[n.budgetOf key]? = some b) (h : count * pageSize < sizeBound) :
    (n.pages key count).1 =
      (b.alloc n.memory.heap .contiguous n.memory.lane none (count * pageSize)).1.mapError .memory := by
  rw [pages, if_pos h, memoryFor, onMemory, Memory.alloc, hb]

/-- A splice whose budget does not exist gets none. -/
theorem pages_of_none (hb : n.memory.budgets[n.budgetOf key]? = none) (h : count * pageSize < sizeBound) :
    (n.pages key count).1 = .error (.memory (.exhausted (count * pageSize))) := by
  rw [pages, if_pos h, memoryFor, onMemory, Memory.alloc, hb]
  rfl

/-- Pages that are granted can be counted, and are what the splice's budget grants for them. -/
theorem pages_ok {block : Block} (h : (n.pages key count).1 = .ok block) :
    count * pageSize < sizeBound ∧ ∃ b : Budget, n.memory.budgets[n.budgetOf key]? = some b ∧
      (b.alloc n.memory.heap .contiguous n.memory.lane none (count * pageSize)).1 = .ok block := by
  by_cases hcount : count * pageSize < sizeBound
  · refine ⟨hcount, ?_⟩
    cases hb : n.memory.budgets[n.budgetOf key]? with
    | none =>
      rw [pages_of_none hb hcount] at h
      cases h
    | some b =>
      refine ⟨b, rfl, ?_⟩
      rw [pages_eq hb hcount] at h
      cases ha : (b.alloc n.memory.heap .contiguous n.memory.lane none (count * pageSize)).1 with
      | error e =>
        rw [ha] at h
        cases h
      | ok block' =>
        rw [ha] at h
        cases h
        rfl
  · rw [pages, if_neg hcount] at h
    cases h

/-- Pages are refused as ragged just if their bytes cannot be counted. -/
theorem pages_ragged_iff :
    (∃ e, (n.pages key count).1 = .error (.memory e) ∧ e.Ragged) ↔ sizeBound ≤ count * pageSize := by
  by_cases hcount : count * pageSize < sizeBound
  · refine iff_of_false ?_ (Nat.not_le.2 hcount)
    rintro ⟨e, he, hragged⟩
    cases hb : n.memory.budgets[n.budgetOf key]? with
    | none =>
      rw [pages_of_none hb hcount] at he
      cases he
      exact hragged (Nat.dvd_mul_left _ _)
    | some b =>
      rw [pages_eq hb hcount] at he
      cases ha : (b.alloc n.memory.heap .contiguous n.memory.lane none (count * pageSize)).1 with
      | error e' =>
        rw [ha] at he
        cases he
        exact not_isCharge_iff.2 ((alloc_ragged_iff none hcount).1 ⟨e, ha, hragged⟩) ⟨_, isCharge_pages hcount⟩
      | ok block =>
        rw [ha] at he
        cases he
  · refine iff_of_true ⟨.exhausted (sizeBound - 1), ?_, ?_⟩ (Nat.le_of_not_lt hcount)
    · rw [pages, if_neg hcount]
    · exact (by decide : ¬ pageSize ∣ sizeBound - 1)

theorem size_of_pages {block : Block} (h : (n.pages key count).1 = .ok block) : block.size = count * pageSize := by
  obtain ⟨hcount, b, -, ha⟩ := pages_ok h
  exact size_of_alloc (isCharge_pages hcount) ha

/-- They are granted where there is room for them. -/
theorem pages_granted {b : Budget} (hb : n.memory.budgets[n.budgetOf key]? = some b)
    (hfits : Fits b .contiguous n.memory.lane (count * pageSize))
    (hheap : n.memory.heap.has (count * pageSize) = true) : ∃ block, (n.pages key count).1 = .ok block := by
  have hcount : count * pageSize < sizeBound := by
    have := hfits.lt_signedBound
    simp only [signedBound, sizeBound] at this ⊢
    omega
  obtain ⟨block, hblock⟩ := alloc_of_fits none (isCharge_pages hcount) hfits hheap
  exact ⟨block, by rw [pages_eq hb hcount, hblock]; rfl⟩

end Network

namespace Budget

/-- **What a block remembers.** Whatever a block was granted for, and whatever is done with it afterwards, with budgets
and a system allocator that may change between any two deeds: its length is the charge of the size granted last, which
is that size for a plain block and the least whole number of pages that holds it for a contiguous one, and each position
holds the byte written there last since it came into the length, or zero. Pages by number are so many pages, granted
whenever the splice's budget lets them through and the system allocator has them. And a request is refused for want of
a charge, at first or later, just if no whole number of pages below the bound of sizes holds what was asked for; pages
by number are just if their bytes reach that bound. -/
theorem lease_exact :
    (∀ (b : Budget) heap kind lane comment asked block, (b.alloc heap kind lane comment asked).1 = .ok block →
      ∀ deeds, ((Lease.start asked block).run deeds).Remembers kind) ∧
    (∀ (n : Network) key count block, (n.pages key count).1 = .ok block →
      block.size = count * pageSize ∧
        ∀ deeds, ((Lease.start (count * pageSize) block).run deeds).Remembers .contiguous) ∧
    (∀ (n : Network) key count b, n.memory.budgets[n.budgetOf key]? = some b →
      Fits b .contiguous n.memory.lane (count * pageSize) → n.memory.heap.has (count * pageSize) = true →
      ∃ block, (n.pages key count).1 = .ok block) ∧
    (∀ (n : Network) key count,
      (∃ e, (n.pages key count).1 = .error (.memory e) ∧ e.Ragged) ↔ sizeBound ≤ count * pageSize) ∧
    (∀ size < sizeBound, ∀ (b : Budget) heap lane,
      (∀ comment, (∃ e, (b.alloc heap .contiguous lane comment size).1 = .error e ∧ e.Ragged) ↔ HasNoPages size) ∧
      ∀ l : Lease, l.Remembers .contiguous →
        ((∃ e, (b.resize heap lane l.block size).1 = .error e ∧ e.Ragged) ↔ HasNoPages size)) := by
  refine ⟨?_, ?_, ?_, ?_, ?_⟩
  · intro b heap kind lane comment asked block h deeds
    exact Lease.remembers_run h deeds
  · intro n key count block h
    obtain ⟨-, b, -, ha⟩ := Network.pages_ok h
    exact ⟨Network.size_of_pages h, Lease.remembers_run ha⟩
  · intro n key count b hb hfits hheap
    exact Network.pages_granted hb hfits hheap
  · intro n key count
    exact Network.pages_ragged_iff
  · intro size hsize b heap lane
    refine ⟨fun comment => alloc_ragged_iff comment hsize, fun l h => ?_⟩
    obtain ⟨asked, -, ⟨-, hpages, -⟩, -⟩ := h.length
    exact resize_ragged_iff h.kind_eq hpages hsize

/-- Four bytes written, cut to two, refused more than the budget has, and grown again: what was cut off comes back as
zeros. Two pages are granted of the same budget, and refused as many bytes as no pages hold. -/
theorem lease_exact_regrown :
    let b := Budget.new 0 8192 false
    let n : Network := { plane := { memory := { budgets := #[b] } } }
    let block : Block := ⟨0, 1, .plain, .zeroed 4⟩
    let l := (Lease.start 4 block).run
      [.write 0 [1, 2, 3, 4], .resize b .standard .first 2, .resize b .standard .first 9000,
        .resize b .standard .first 4, .write 3 [9]]
    (b.alloc .standard .plain .first none 4).1 = .ok block ∧ l.Remembers .plain ∧
      l.block.bytes = [1, 2, 0, 9] ∧ l.past.length = 5 ∧
    ∃ pages, (n.pages 0 2).1 = .ok pages ∧ pages.size = 8192 ∧
      ∃ e, (b.resize .standard .first pages (sizeBound - 1)).1 = .error e ∧ e.Ragged := by
  intro b n block l
  obtain ⟨hgranted, hpages, hfit, -, hragged⟩ := lease_exact
  have hblock : (b.alloc .standard .plain .first none 4).1 = .ok block := by decide +kernel
  refine ⟨hblock, hgranted b .standard .plain .first none 4 block hblock _, by decide +kernel, by decide +kernel, ?_⟩
  obtain ⟨pages, htwo⟩ := hfit n 0 2 b rfl ⟨by decide, by decide, by decide +kernel⟩ (by decide)
  obtain ⟨hsize, hlease⟩ := hpages n 0 2 pages htwo
  have hnone : HasNoPages (sizeBound - 1) := by
    rintro size hle ⟨k, rfl⟩
    simp only [sizeBound, pageSize] at hle ⊢
    omega
  obtain ⟨-, hresize⟩ := hragged (sizeBound - 1) (by decide) b .standard .first
  exact ⟨pages, htwo, hsize, (hresize (Lease.start (2 * pageSize) pages) (hlease [])).2 hnone⟩

end Budget

end Patchbay
