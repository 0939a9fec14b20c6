import Patchbay.Mac

/-!
# `Patchbay.Host.Interface` — the host's interface table

The host keeps its interfaces in a table, in the order in which they were put in. Names are compared on their
first sixteen bytes only, as the host itself does.

## Contents
* `Attachment` — whether frames of an interface go through the hooks; `Interface`, `Interface.mac?`;
* `sameName` — the comparison of names;
* `Table` and its operations: `Table.insert`, `Table.remove`, `Table.get?`, `Table.find?`, `Table.modify`,
  `Table.modifyNamed`.
-/

namespace Patchbay

/-- What the host takes to be attached to an interface. -/
inductive Attachment where
  | none
  /-- A mark that a splice set. -/
  | synthetic
  /-- A genuine node. -/
  | node
deriving DecidableEq, Repr

/-- One interface of the host. -/
structure Interface where
  index : Nat
  name : String
  mtu : Nat
  flags : Nat
  /-- The link-layer addresses in order; an address of another link type is not written. -/
  addresses : List (Option Mac)
  attachment : Attachment := .none
deriving DecidableEq

namespace Interface

/-- The first Ethernet address. -/
def mac? (i : Interface) : Option Mac :=
  i.addresses.findSome? id

/-- Says whether the interface is up: the lowest flag. -/
def isUp (i : Interface) : Bool :=
  i.flags.testBit 0

end Interface

/-- The bytes of a name that count. -/
def nameBytes (name : String) : List UInt8 :=
  name.toUTF8.data.toList.take 16

/-- Says whether the host takes two names for the same. -/
def sameName (a b : String) : Bool :=
  nameBytes a == nameBytes b

/-- The host's interfaces in order. -/
structure Table where
  interfaces : List Interface := []
deriving DecidableEq

namespace Table

/-- Puts an interface last; one that had its index before goes. -/
def insert (t : Table) (i : Interface) : Table :=
  ⟨t.interfaces.filter (·.index ≠ i.index) ++ [i]⟩

/-- The interface with an index. -/
def get? (t : Table) (index : Nat) : Option Interface :=
  t.interfaces.find? (·.index = index)

/-- Takes the first interface with an index out. -/
def remove (t : Table) (index : Nat) : Option Interface × Table :=
  (t.get? index, ⟨t.interfaces.eraseP (·.index = index)⟩)

/-- The first interface with a name. -/
def find? (t : Table) (name : String) : Option Interface :=
  t.interfaces.find? (sameName ·.name name)

/-- Changes the first interface that a test picks out. -/
def modifyFirst (f : Interface → Interface) (picks : Interface → Bool) :
    List Interface → List Interface
  | [] => []
  | i :: rest => if picks i then f i :: rest else i :: modifyFirst f picks rest

/-- Changes the interface with an index. -/
def modify (t : Table) (index : Nat) (f : Interface → Interface) : Table :=
  ⟨modifyFirst f (·.index = index) t.interfaces⟩

/-- Changes the first interface with a name. -/
def modifyNamed (t : Table) (name : String) (f : Interface → Interface) : Table :=
  ⟨modifyFirst f (sameName ·.name name) t.interfaces⟩

/-- The names of the interfaces that have an Ethernet address. -/
def etherNames (t : Table) : List String :=
  (t.interfaces.filter (·.mac?.isSome)).map (·.name)

end Table

end Patchbay
