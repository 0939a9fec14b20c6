import Patchbay.Budget.Account
import Patchbay.Total

/-!
# `Patchbay.Budget.Ledger` — a record of each live allocation

A budget may keep a ledger to find leaks. Ids are given out in increasing order, so entries stand in id order.
A leak check takes every entry out; a block that was reported once is never reported again.

## Contents
* `Entry`, `Ledger` — one live allocation, and all of them;
* `Ledger.record`, `Ledger.resized`, `Ledger.forget` — what happens to a block;
* `LeakReport`, `Ledger.report` — what a leak check returns.
-/

namespace Patchbay.Budget

/-- One live allocation. -/
structure Entry where
  id : Nat
  size : Nat
  kind : Kind
  comment : Option String
deriving DecidableEq, Repr

/-- The live allocations in id order. -/
structure Ledger where
  entries : List Entry := []
deriving DecidableEq

/-- What a leak check returns. -/
structure LeakReport where
  entries : List Entry
deriving DecidableEq

/-- The bytes of all reported allocations. -/
def LeakReport.bytes (r : LeakReport) : Nat :=
  total Entry.size r.entries

namespace Ledger

/-- Enters an allocation, whose id is above all ids entered before. -/
def record (l : Ledger) (e : Entry) : Ledger :=
  ⟨l.entries ++ [e]⟩

/-- Notes the new size of an allocation; one that was reported before stays out. -/
def resized (l : Ledger) (id size : Nat) : Ledger :=
  ⟨l.entries.map fun e => if e.id = id then { e with size := size } else e⟩

/-- Strikes an allocation out. -/
def forget (l : Ledger) (id : Nat) : Ledger :=
  ⟨l.entries.filter (·.id ≠ id)⟩

/-- What a leak check returns; the ledger is empty behind it. -/
def report (l : Ledger) : LeakReport :=
  ⟨l.entries⟩

end Ledger

end Patchbay.Budget
