import Patchbay.Network.Basic

/-!
# `Patchbay.Network.Lifetime` — hooks in and out of the slot

Putting a hook into the slot yields the one that was there. A splice that was started puts itself into the
slot and remembers what it displaced; torn down, it puts that back, whatever is in the slot by then, and
unplugs everything. Tearing it down again does nothing.

## Contents
* `Network.exchangeHook`, `Network.putHook` — the slot;
* `Network.tellPrevious` — what a splice is told about the slot, once;
* `Network.addSplice`, `Network.startSplice` — a splice outside the slot, and one in it;
* `Network.tearDown`, `Network.holdSplice`, `Network.dropSplice` — the consumer's side.
-/

namespace Patchbay

namespace Network

/-! ## The slot -/

/-- Puts a hook into the slot; answers the one that was there, whose link goes to the caller. -/
def exchangeHook (n : Network) (hook : Hook) : Option Hook × Network :=
  (n.slot, { n with slot := some hook }.link (some hook))

/-- Puts a hook into the slot whose link the caller hands over; the one that was there loses its link. -/
def putHook (n : Network) (hook : Option Hook) : Network :=
  { n with slot := hook }.unlink n.slot

/-- Tells a splice what was in the slot before, whose link the caller hands over. Only the first time
counts. -/
def tellPrevious (n : Network) (key : Nat) (hook : Option Hook) : Network :=
  match (n.splices[key]?.bind Splice.previous) with
  | none => n.modifySplice key fun s => { s with previous := some hook }
  | some _ => n.unlink hook

/-! ## Splices -/

/-- A further splice with one handle, outside the slot; answers its key. -/
def addSplice (n : Network) (budget : Nat) : Nat × Network :=
  (n.splices.size, { n with splices := n.splices.push { budget := budget } })

/-- A further splice with one handle that puts itself into the slot; answers its key. -/
def startSplice (n : Network) (budget : Nat) : Nat × Network :=
  let (key, n) := n.addSplice budget
  let (displaced, n) := n.exchangeHook (.splice key)
  (key, (n.tellPrevious key displaced).modifySplice key fun s => { s with active := true })

/-- Tears a splice down: what it displaced goes back into the slot, and everything is unplugged. -/
def tearDown (n : Network) (key : Nat) : Network :=
  match n.splices[key]? with
  | none => n
  | some s =>
    if s.active then
      let n := n.modifySplice key fun s => { s with active := false }
      let n := (n.link (n.previous? key)).putHook (n.previous? key)
      (n.onRegistry key Registry.unplugEverything).2
    else n

/-- One more handle on a splice. -/
def holdSplice (n : Network) (key : Nat) : Network :=
  n.modifySplice key fun s => { s with handles := s.handles + 1 }

/-- One handle on a splice less. With the last one it is torn down, and it ends unless a hook place still
holds it. -/
def dropSplice (n : Network) (key : Nat) : Network :=
  match n.splices[key]? with
  | none => n
  | some s =>
    let n := if s.handles ≤ 1 then n.tearDown key else n
    (n.modifySplice key fun s => { s with handles := s.handles - 1 }).dispose key

end Network

end Patchbay
