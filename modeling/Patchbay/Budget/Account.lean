import Patchbay.Total

/-!
# `Patchbay.Budget.Account` — the figures of a budget

A budget counts bytes, allocations and frees for each kind of memory. So that threads do not share a counter,
each figure is split over lanes, a thread works on one lane, and a figure is read as the sum of its lanes. A
block may be freed on another lane than it was allocated on, so the bytes of a single lane may be negative;
they are signed 64-bit words and wrap.

## Contents
* `Kind` — plain and contiguous memory; `Lane` — where a thread counts;
* `Tally` — the figures of one kind on one lane; `Tallies` — of one kind on all lanes;
* `Account` — of both kinds; `Account.outstanding`, `Account.outstandingOf` — bytes outstanding, never below 0;
* `Tallies.bytes_change` — changing one lane moves the sum by just what the lane moved;
* `Account.credit_charge` — a charge that is taken back leaves no trace.
-/

namespace Patchbay.Budget

/-- How memory is handed out. -/
inductive Kind where
  /-- Any size. -/
  | plain
  /-- Whole pages. -/
  | contiguous
deriving DecidableEq, Repr

/-- The number of lanes. -/
def laneCount : Nat := 16

/-- Where a thread counts. -/
abbrev Lane := Fin laneCount

/-- The lane of the first thread. -/
def Lane.first : Lane := ⟨0, by decide⟩

/-- The figures of one kind on one lane. -/
structure Tally where
  /-- Bytes charged less bytes credited. -/
  bytes : Int64 := 0
  allocations : Nat := 0
  frees : Nat := 0
deriving DecidableEq

/-- The figures of one kind, lane by lane. -/
abbrev Tallies := Vector Tally laneCount

namespace Tallies

/-- No figure has moved yet. -/
def empty : Tallies := Vector.replicate laneCount {}

/-- The figures with those of one lane changed. -/
def change (t : Tallies) (lane : Lane) (f : Tally → Tally) : Tallies :=
  t.set lane (f t[lane])

/-- The bytes over all lanes. -/
def bytes (t : Tallies) : Int64 :=
  (t.toList.map Tally.bytes).sum

/-- The allocations over all lanes. -/
def allocations (t : Tallies) : Nat :=
  total Tally.allocations t.toList

/-- The frees over all lanes. -/
def frees (t : Tallies) : Nat :=
  total Tally.frees t.toList

/-! ## Sums over the lanes -/

theorem sum_set {l : List Int64} {i : Nat} (h : i < l.length) (x : Int64) :
    (l.set i x).sum = l.sum + (x - l[i]) := by
  induction l generalizing i with
  | nil => simp at h
  | cons a l ih =>
    cases i with
    | zero =>
      simp only [List.set_cons_zero, List.sum_cons, List.getElem_cons_zero]
      grind
    | succ i =>
      have hi : i < l.length := by simpa using h
      simp only [List.set_cons_succ, List.sum_cons, List.getElem_cons_succ, ih hi]
      grind

theorem bytes_change (t : Tallies) (lane : Lane) (f : Tally → Tally) :
    (t.change lane f).bytes = t.bytes + ((f t[lane]).bytes - t[lane].bytes) := by
  have h : lane.val < (t.toList.map Tally.bytes).length := by simp
  simp only [bytes, change, Fin.getElem_fin]
  rw [Vector.toList_set, List.map_set, sum_set h]
  simp

theorem allocations_change (t : Tallies) (lane : Lane) (f : Tally → Tally) :
    (t.change lane f).allocations + t[lane].allocations =
      t.allocations + (f t[lane]).allocations := by
  have h : lane.val < t.toList.length := by simp
  have := total_set Tally.allocations h (f t[lane])
  rw [allocations, change, Vector.toList_set, allocations]
  simpa using this

theorem frees_change (t : Tallies) (lane : Lane) (f : Tally → Tally) :
    (t.change lane f).frees + t[lane].frees = t.frees + (f t[lane]).frees := by
  have h : lane.val < t.toList.length := by simp
  have := total_set Tally.frees h (f t[lane])
  rw [frees, change, Vector.toList_set, frees]
  simpa using this

theorem change_change (t : Tallies) (lane : Lane) (f g : Tally → Tally) :
    (t.change lane f).change lane g = t.change lane (g ∘ f) := by
  simp [change]

theorem change_id (t : Tallies) (lane : Lane) : t.change lane id = t := by
  simp [change]

end Tallies

/-- The figures of both kinds. -/
structure Account where
  plain : Tallies := Tallies.empty
  contiguous : Tallies := Tallies.empty
deriving DecidableEq

namespace Account

/-- The figures of one kind. -/
def ofKind (a : Account) : Kind → Tallies
  | .plain => a.plain
  | .contiguous => a.contiguous

/-- The figures with those of one kind on one lane changed. -/
def change (a : Account) (kind : Kind) (lane : Lane) (f : Tally → Tally) : Account :=
  match kind with
  | .plain => { a with plain := a.plain.change lane f }
  | .contiguous => { a with contiguous := a.contiguous.change lane f }

/-- Adds bytes to what is outstanding. -/
def charge (a : Account) (kind : Kind) (lane : Lane) (n : Nat) : Account :=
  a.change kind lane fun t => { t with bytes := t.bytes + Int64.ofNat n }

/-- Takes bytes back from what is outstanding. -/
def credit (a : Account) (kind : Kind) (lane : Lane) (n : Nat) : Account :=
  a.change kind lane fun t => { t with bytes := t.bytes - Int64.ofNat n }

/-- Counts one allocation. -/
def countAllocation (a : Account) (kind : Kind) (lane : Lane) : Account :=
  a.change kind lane fun t => { t with allocations := t.allocations + 1 }

/-- Counts one free. -/
def countFree (a : Account) (kind : Kind) (lane : Lane) : Account :=
  a.change kind lane fun t => { t with frees := t.frees + 1 }

/-- The bytes outstanding of one kind; a negative sum counts as none. -/
def outstandingOf (a : Account) (kind : Kind) : Nat :=
  (a.ofKind kind).bytes.toNatClampNeg

/-- The bytes outstanding; a negative sum counts as none. -/
def outstanding (a : Account) : Nat :=
  (a.plain.bytes + a.contiguous.bytes).toNatClampNeg

/-- The allocations of both kinds. -/
def allocations (a : Account) : Nat :=
  a.plain.allocations + a.contiguous.allocations

/-- The frees of both kinds. -/
def frees (a : Account) : Nat :=
  a.plain.frees + a.contiguous.frees

/-! ## What a charge changes -/

theorem ofKind_change (a : Account) (kind other : Kind) (lane : Lane) (f : Tally → Tally) :
    (a.change kind lane f).ofKind other =
      if other = kind then (a.ofKind kind).change lane f else a.ofKind other := by
  cases kind <;> cases other <;> rfl

theorem credit_charge (a : Account) (kind : Kind) (lane : Lane) (n : Nat) :
    (a.charge kind lane n).credit kind lane n = a := by
  have undo : ((fun t : Tally => { t with bytes := t.bytes - Int64.ofNat n }) ∘
      fun t => { t with bytes := t.bytes + Int64.ofNat n }) = id := by
    funext t
    simp
  cases kind
  · rw [charge, credit, change, change, Tallies.change_change, undo, Tallies.change_id]
  · rw [charge, credit, change, change, Tallies.change_change, undo, Tallies.change_id]

end Account

end Patchbay.Budget
