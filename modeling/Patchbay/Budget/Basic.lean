import Patchbay.Budget.Contents
import Patchbay.Budget.Failure
import Patchbay.Budget.Ledger
import Patchbay.Budget.Page

/-!
# `Patchbay.Budget.Basic` — memory under a ceiling

A budget grants blocks as long as the bytes outstanding stay at or below its ceiling. A request is charged
first and checked afterwards, so that threads racing each other see each other's charges; a refused charge is
taken back. What the budget lets through still needs a block from the system allocator.

## Contents
* `Heap` — which requests the system allocator grants;
* `Block` — granted memory; `Budget` — ceiling, figures, next id, ledger;
* `Budget.reserve` — charge and check;
* `Budget.alloc`, `Budget.resize`, `Budget.free`, `Budget.collectLeaks` — the operations.
-/

namespace Patchbay

namespace Budget

/-- Which requests the system allocator grants, by size. -/
abbrev Heap := Nat → Bool

/-- A system allocator that has blocks of any size below thirty-two gibibytes. -/
def Heap.standard : Heap := fun n => n < 0x800000000

/-- Memory that a budget granted. -/
structure Block where
  /-- The budget that the block is returned to. -/
  owner : Nat
  id : Nat
  kind : Kind
  contents : Contents
deriving DecidableEq

/-- The number of bytes in a block. -/
def Block.size (b : Block) : Nat := b.contents.size

/-- The bytes of a block. -/
def Block.bytes (b : Block) : List UInt8 := b.contents.toList

/-- The name of a kind in descriptions. -/
def Kind.label : Kind → String
  | .plain => "Plain"
  | .contiguous => "Contiguous"

/-- The short description of a block. -/
def Block.describe (b : Block) : String :=
  "Block \x7b id: " ++ toString b.id ++ ", kind: " ++ b.kind.label ++ ", len: " ++ toString b.size ++
    " \x7d"

/-- The name of the way a shared block goes back, in descriptions. -/
def Block.releaseLabel (b : Block) : String :=
  match b.kind with
  | .plain => "Transient"
  | .contiguous => "Page"

/-- A block after bytes were laid over its own from a position, clipped at its end. -/
def Block.write (b : Block) (start : Nat) (data : List UInt8) : Block :=
  { b with contents := b.contents.write start data }

end Budget

/-- Memory under a ceiling. -/
structure Budget where
  /-- Which budget it is among those in use. -/
  key : Nat
  ceiling : Nat
  account : Budget.Account := {}
  /-- The id that the next granted block gets. -/
  nextId : Nat := 1
  /-- The live allocations, where they are recorded. -/
  ledger : Option Budget.Ledger := none
deriving DecidableEq

namespace Budget

/-- A budget that has granted nothing yet. -/
def new (key ceiling : Nat) (tracking : Bool) : Budget where
  key := key
  ceiling := ceiling
  ledger := if tracking then some {} else none

/-- The bytes outstanding. -/
def outstanding (b : Budget) : Nat := b.account.outstanding

/-- The size that a request of a kind is charged with: contiguous memory comes in whole pages. -/
def chargedSize (kind : Kind) (size : Nat) : Except Failure Nat :=
  match kind with
  | .plain => .ok size
  | .contiguous =>
    match wholePages? size with
    | some pages => .ok pages
    | none => .error (.exhausted size)

/-- The budget after `n` bytes were charged. -/
def charge (b : Budget) (kind : Kind) (lane : Lane) (n : Nat) : Budget :=
  { b with account := b.account.charge kind lane n }

/-- The budget after `n` bytes were taken back. -/
def credit (b : Budget) (kind : Kind) (lane : Lane) (n : Nat) : Budget :=
  { b with account := b.account.credit kind lane n }

/-- Charges `n` bytes if the total stays at or below the ceiling. A refusal tells the total without the
charge and leaves the figures as they were. -/
def reserve (b : Budget) (kind : Kind) (lane : Lane) (n : Nat) : Except Failure Unit × Budget :=
  if b.ceiling < n ∨ signedBound ≤ n then (.error (.outOfMemory n b.outstanding b.ceiling), b)
  else
    let charged := b.charge kind lane n
    let total := charged.outstanding
    if b.ceiling < total then
      (.error (.outOfMemory n (total - n) b.ceiling), charged.credit kind lane n)
    else (.ok (), charged)

/-- Says whether the system allocator has `n` bytes; it always has none. -/
def Heap.has (heap : Heap) (n : Nat) : Bool :=
  n == 0 || heap n

/-- The budget after a block of `size` bytes was granted, and the block. -/
def grant (b : Budget) (kind : Kind) (lane : Lane) (comment : Option String) (size : Nat) :
    Block × Budget :=
  ({ owner := b.key, id := b.nextId, kind := kind, contents := .zeroed size },
    { b with
      account := b.account.countAllocation kind lane
      nextId := b.nextId + 1
      ledger := b.ledger.map (·.record ⟨b.nextId, size, kind, comment⟩) })

/-- Asks for a block of zeros. -/
def alloc (heap : Heap) (b : Budget) (kind : Kind) (lane : Lane) (comment : Option String)
    (size : Nat) : Except Failure Block × Budget :=
  match chargedSize kind size with
  | .error e => (.error e, b)
  | .ok size =>
    match b.reserve kind lane size with
    | (.error e, b) => (.error e, b)
    | (.ok (), b) =>
      if heap.has size then
        let (block, b) := b.grant kind lane comment size
        (.ok block, b)
      else (.error (.exhausted size), b.credit kind lane size)

/-- Notes a block's new size in the ledger. -/
def noteSize (b : Budget) (id size : Nat) : Budget :=
  { b with ledger := b.ledger.map (·.resized id size) }

/-- Asks for another size of a block. Only growth is charged and can be refused; a refused block stays as
it is, a shorter one loses its last bytes, a longer one gains zeros. -/
def resize (heap : Heap) (b : Budget) (lane : Lane) (block : Block) (size : Nat) :
    Except Failure Block × Budget :=
  match chargedSize block.kind size with
  | .error e => (.error e, b)
  | .ok size =>
    let resized := { block with contents := block.contents.resize size }
    if block.size < size then
      let growth := size - block.size
      match b.reserve block.kind lane growth with
      | (.error e, b) => (.error e, b)
      | (.ok (), b) =>
        if heap.has size then (.ok resized, b.noteSize block.id size)
        else (.error (.exhausted growth), b.credit block.kind lane growth)
    else
      (.ok resized, (b.credit block.kind lane (block.size - size)).noteSize block.id size)

/-- The budget after a block was returned. -/
def free (b : Budget) (lane : Lane) (block : Block) : Budget :=
  { b with
    account := (b.account.credit block.kind lane block.size).countFree block.kind lane
    ledger := b.ledger.map (·.forget block.id) }

/-- Takes every recorded allocation out of the ledger; without a ledger there is none. -/
def collectLeaks (b : Budget) : LeakReport × Budget :=
  match b.ledger with
  | none => (⟨[]⟩, b)
  | some l => (l.report, { b with ledger := some {} })

/-- The short description of a budget. -/
def describe (b : Budget) : String :=
  "MemoryBudget \x7b ceiling: " ++ toString b.ceiling ++ ", outstanding: " ++
    toString b.outstanding ++ " \x7d"

end Budget

end Patchbay
