import Patchbay.Host.Hook
import Patchbay.Network.Registry

/-!
# `Patchbay.Network.Basic` — a host with splices in its hook slot

A splice stands in the host's hook slot for one consumer: it has the consumer's budget and registry, and it
remembers what was in the slot before. Consumers hold a splice by handles; the slot, other splices and whoever
took a hook out of the slot hold it by links. A splice without either is gone, and all it held with it.

## Contents
* `Splice`, `Network`;
* `Network.previous?` — what a splice remembers;
* `Network.onRegistry` — an operation on the registry of a splice;
* `Network.link`, `Network.unlink` — one link to a hook more, one less;
* `Network.dispose` — the end of a splice.
-/

namespace Patchbay

/-- What stands in the hook slot for one consumer. -/
structure Splice where
  /-- The consumer's budget. -/
  budget : Nat
  registry : Registry := {}
  /-- What was in the slot before, once it has been told. -/
  previous : Option (Option Hook) := none
  /-- Whether it has to take itself out of the slot at its end. -/
  active : Bool := false
  /-- How many consumers hold it. -/
  handles : Nat := 1
  /-- How many hook places hold it. -/
  links : Nat := 0

/-- A host: its backplane, the splices by key, the hook slot, and what arrived. -/
structure Network where
  plane : Backplane := {}
  splices : Array Splice := #[]
  slot : Option Hook := none
  /-- Frames that reached the host's stack. -/
  stack : Array Delivery := #[]
  /-- Frames that reached the wire. -/
  wire : Array Delivery := #[]
  /-- Calls that hook sets of somebody else saw. -/
  calls : Array HookCall := #[]
  /-- The index that the next interface of the host gets. -/
  nextIndex : Nat := 1

namespace Network

/-- The memory of the host. -/
@[inline] def memory (n : Network) : Memory := n.plane.memory

/-- The network with its memory replaced. -/
@[inline] def setMemory (n : Network) (m : Memory) : Network :=
  { n with plane := { n.plane with memory := m } }

/-- Carries an operation out on the memory. -/
@[inline] def onMemory {α : Type} (n : Network) (f : Memory → α × Memory) : α × Network :=
  let (answer, m) := f n.memory
  (answer, n.setMemory m)

/-- The network with a splice changed. -/
def modifySplice (n : Network) (key : Nat) (f : Splice → Splice) : Network :=
  { n with splices := n.splices.modify key f }

/-- The registry of a splice; a splice that does not exist has nothing plugged. -/
def registry (n : Network) (key : Nat) : Registry :=
  (n.splices[key]?.map Splice.registry).getD {}

/-- The budget of a splice. -/
def budgetOf (n : Network) (key : Nat) : Nat :=
  (n.splices[key]?.map Splice.budget).getD 0

/-- The hook that a splice remembers. -/
def previous? (n : Network) (key : Nat) : Option Hook :=
  (n.splices[key]?.bind Splice.previous).join

/-- Carries an operation out on the registry of a splice. -/
def onRegistry {α : Type} (n : Network) (key : Nat)
    (f : Registry → Backplane → α × Registry × Backplane) : α × Network :=
  let (answer, registry, plane) := f (n.registry key) n.plane
  (answer, { n with plane := plane }.modifySplice key fun s => { s with registry := registry })

/-! ## Who holds a splice -/

/-- One more link to a hook. -/
def link (n : Network) (hook : Option Hook) : Network :=
  match hook.bind Hook.spliceKey? with
  | none => n
  | some key => n.modifySplice key fun s => { s with links := s.links + 1 }

/-- The network after a splice let go of its plugs and forgot what was in the slot. -/
def abandon (n : Network) (key : Nat) : Network :=
  let plane := (n.registry key).plugs.foldl Backplane.dropPlug n.plane
  { n with plane := plane }.modifySplice key fun s =>
    { s with registry := {}, previous := some none }

/-- The end of a splice that nobody holds; what it remembered loses a link, and so on as far as there are
splices. -/
def disposeWithin : Nat → Network → Nat → Network
  | 0, n, _ => n
  | fuel + 1, n, key =>
    match n.splices[key]? with
    | none => n
    | some s =>
      if s.handles = 0 ∧ s.links = 0 then
        let n := n.abandon key
        match s.previous.join.bind Hook.spliceKey? with
        | none => n
        | some older =>
          disposeWithin fuel (n.modifySplice older fun s => { s with links := s.links - 1 }) older
      else n

/-- Ends a splice if nobody holds it any more. -/
def dispose (n : Network) (key : Nat) : Network :=
  disposeWithin n.splices.size n key

/-- One link to a hook less. -/
def unlink (n : Network) (hook : Option Hook) : Network :=
  match hook.bind Hook.spliceKey? with
  | none => n
  | some key => (n.modifySplice key fun s => { s with links := s.links - 1 }).dispose key

end Network

end Patchbay
