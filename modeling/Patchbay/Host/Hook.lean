import Patchbay.Frame.Chain

/-!
# `Patchbay.Host.Hook` — who looks at frames on their way

The host passes every frame through the hooks in its slot. The slot holds a hook set of somebody else, which
decides for itself, or a splice, which takes what its consumer listens for and passes the rest on to whatever
was in the slot before it.

Somebody else's hooks are filters without a memory: what they decide depends on the interface and the chain alone, and
a chain that they let go on is the one they were offered, no byte or mark of it changed. They may keep a chain, let it
go on or, on its way out, fail it.

## Contents
* `HookSet` — somebody else's hooks: two decisions under a name; `Hook` — what a slot can hold;
* `HookPoint`, `HookCall` — a call that a hook set saw; `Delivery` — a frame that arrived.
-/

namespace Patchbay

/-- Hooks of somebody else: a filter for each way, which keeps nothing in mind. -/
structure HookSet where
  name : String
  /-- Whether a received chain goes on into the host. -/
  passesInput : Nat → Chain → Bool
  /-- Whether a sent chain goes on to the driver, or the code of a failure. -/
  passesOutput : Nat → Chain → Except Int Bool

/-- What the host's slot can hold. -/
inductive Hook where
  | foreign (hooks : HookSet)
  /-- The splice with this key. -/
  | splice (key : Nat)

/-- The splice that a hook belongs to. -/
def Hook.spliceKey? : Hook → Option Nat
  | .foreign _ => none
  | .splice key => some key

/-- Where a frame is offered to hooks. -/
inductive HookPoint where
  | input
  | output
  | orphan
deriving DecidableEq, Repr

/-- A call that a hook set of somebody else saw. -/
inductive HookCall where
  /-- A chain was offered: its first frame's length and interface, and the number of its frames. -/
  | offered (hooks : String) (point : HookPoint) (index length size : Nat) (receivedOn : Option Nat)
  /-- An interface appeared. -/
  | attached (hooks : String) (index : Nat)
  /-- An interface went. -/
  | detached (hooks : String) (index : Nat)
deriving DecidableEq, Repr

/-- What a hook set sees of a chain that is offered to it. -/
def HookSet.seen (h : HookSet) (point : HookPoint) (index : Nat) (c : Chain) : HookCall :=
  .offered h.name point index c.head.length c.size c.head.receivedOn

/-- A frame that reached the host's stack or the wire. -/
structure Delivery where
  index : Nat
  bytes : List UInt8
  segments : Nat
deriving DecidableEq

/-- What is noted of a chain that arrived: one row for each frame, in order. -/
def Delivery.ofChain (index : Nat) (c : Chain) : List Delivery :=
  c.frames.map fun f => ⟨index, f.bytes, f.segments.length⟩

end Patchbay
