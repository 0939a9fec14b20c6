import Patchbay.Memory.Pool
import Patchbay.Memory.Storage

/-!
# `Patchbay.Memory.Basic` — what is lent, and to how many

Budgets, the host's pool and the reference counts of shared storage make up the memory. Whoever is given a
block, a header or a reference to a storage returns it once; a storage goes back to where it came from with
its last reference.

## Contents
* `Memory` — budgets, pool and reference counts;
* `Memory.alloc`, `Memory.resize`, `Memory.free` — blocks of a budget by its key;
* `Memory.shareCluster`, `Memory.shareBlock` — new shared storage with one reference;
* `Memory.retain`, `Memory.release` — one reference more, one less.
-/

namespace Patchbay

open Budget (Heap Lane Kind Failure Block LeakReport)

/-- Everything that can be lent and has to come back. -/
structure Memory where
  /-- Which requests the system allocator grants. -/
  heap : Heap := Heap.standard
  /-- The lane that the running thread counts on. -/
  lane : Lane := Budget.Lane.first
  pool : Pool := {}
  /-- The budgets by key. -/
  budgets : Array Budget := #[]
  /-- The number of references to each storage, by key. -/
  references : Array Nat := #[]

namespace Memory

/-- Carries an operation out on another thread's lane. -/
def onLane {α : Type} (m : Memory) (lane : Lane) (f : Memory → α × Memory) : α × Memory :=
  let (answer, after) := f { m with lane := lane }
  (answer, { after with lane := m.lane })

/-! ## Budgets -/

/-- A further budget; its key is its position. -/
def addBudget (m : Memory) (ceiling : Nat) (tracking : Bool) : Nat × Memory :=
  (m.budgets.size,
    { m with budgets := m.budgets.push (Budget.new m.budgets.size ceiling tracking) })

/-- The memory with one budget replaced. -/
def setBudget (m : Memory) (key : Nat) (b : Budget) : Memory :=
  { m with budgets := m.budgets.setIfInBounds key b }

/-- Asks a budget for a block; a budget that does not exist has none. -/
def alloc (m : Memory) (key : Nat) (kind : Kind) (comment : Option String) (size : Nat) :
    Except Failure Block × Memory :=
  match m.budgets[key]? with
  | none => (.error (.exhausted size), m)
  | some b =>
    let (answer, b) := b.alloc m.heap kind m.lane comment size
    (answer, m.setBudget key b)

/-- Asks the budget that owns a block for another size of it. -/
def resize (m : Memory) (block : Block) (size : Nat) : Except Failure Block × Memory :=
  match m.budgets[block.owner]? with
  | none => (.error (.exhausted size), m)
  | some b =>
    let (answer, b) := b.resize m.heap m.lane block size
    (answer, m.setBudget block.owner b)

/-- Returns a block to the budget that owns it. -/
def free (m : Memory) (block : Block) : Memory :=
  match m.budgets[block.owner]? with
  | none => m
  | some b => m.setBudget block.owner (b.free m.lane block)

/-- What a leak check of a budget returns. -/
def collectLeaks (m : Memory) (key : Nat) : LeakReport × Memory :=
  match m.budgets[key]? with
  | none => (⟨[]⟩, m)
  | some b =>
    let (report, b) := b.collectLeaks
    (report, m.setBudget key b)

/-- The bytes outstanding in a budget. -/
def outstanding (m : Memory) (key : Nat) : Nat :=
  (m.budgets[key]?.map Budget.outstanding).getD 0

/-! ## Headers -/

/-- The memory after the pool lent one more header, if it has one. -/
def takeHeader? (m : Memory) : Option Memory :=
  m.pool.takeHeader?.map fun pool => { m with pool := pool }

/-- The memory after a header came back. -/
def returnHeader (m : Memory) : Memory :=
  { m with pool := m.pool.returnHeader }

/-! ## Shared storage -/

/-- The references to a storage. -/
def referencesTo (m : Memory) (s : Storage) : Nat :=
  m.references.getD s.key 0

/-- The short description of a storage with the references to it. -/
def describeStorage (m : Memory) (s : Storage) : String :=
  let size := "len: " ++ toString s.size ++ ", refs: " ++ toString (m.referencesTo s) ++ " \x7d)"
  match s.origin with
  | .cluster _ => "Host(HostBuf \x7b " ++ size
  | .block b => "External(BufferProxy \x7b kind: " ++ b.releaseLabel ++ ", " ++ size

/-- The short description of a view. -/
def describeView (m : Memory) (v : View) : String :=
  "FlatBuffer \x7b storage: " ++ m.describeStorage v.storage ++ ", offset: " ++ toString v.offset ++
    ", len: " ++ toString v.length ++ " \x7d"

/-- New shared storage with one reference to it. -/
def share (m : Memory) (origin : Origin) : Storage × Memory :=
  (⟨m.references.size, origin⟩, { m with references := m.references.push 1 })

/-- Copies bytes into a new cluster of the host. -/
def shareCluster (m : Memory) (bytes : List UInt8) : Storage × Memory :=
  { m with pool := m.pool.takeCluster }.share (.cluster (.ofList bytes))

/-- Turns a block into shared storage; from then on its bytes stay as they are. -/
def shareBlock (m : Memory) (block : Block) : Storage × Memory :=
  m.share (.block block)

/-- One more reference to a storage. -/
def retain (m : Memory) (s : Storage) : Memory :=
  { m with references := m.references.modify s.key (· + 1) }

/-- Sends a storage back to where it came from. -/
def reclaim (m : Memory) (s : Storage) : Memory :=
  match s.origin with
  | .cluster _ => { m with pool := m.pool.returnCluster }
  | .block b => m.free b

/-- One reference to a storage less; the last one sends it back. -/
def release (m : Memory) (s : Storage) : Memory :=
  let left := m.referencesTo s - 1
  let m := { m with references := m.references.setIfInBounds s.key left }
  if left = 0 then m.reclaim s else m

/-- Releases the storage of each view. -/
def releaseViews (m : Memory) (views : List View) : Memory :=
  views.foldl (fun m v => m.release v.storage) m

end Memory

end Patchbay
