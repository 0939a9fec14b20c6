import Patchbay.Network.Basic

/-!
# `Patchbay.Network.Passage` — the way of a chain through the hooks

A chain that the host offers to the hook in its slot goes from splice to splice, newest first, each handing it
to what was in the slot before. It ends where a splice takes it for its consumer, at a hook set of somebody
else, or behind the oldest splice. A splice decides by the first frame of the chain.

## Contents
* `Network.hooksFrom`, `Network.path` — the hooks in the order in which a chain meets them;
* `Network.intercept` — what one splice does with a chain;
* `Network.offerInput`, `Network.offerOutput`, `Network.offerOrphan` — the three ways through a path;
* `Network.announce` — an interface that came or went.
-/

namespace Patchbay

namespace Network

/-- The hooks from one on, each splice followed by what it remembers, at most `fuel` of them. -/
def hooksFrom (n : Network) : Nat → Option Hook → List Hook
  | 0, _ => []
  | _ + 1, none => []
  | _ + 1, some (.foreign h) => [.foreign h]
  | fuel + 1, some (.splice key) => .splice key :: hooksFrom n fuel (n.previous? key)

/-- The hooks that a chain meets, newest first. -/
def path (n : Network) : List Hook :=
  n.hooksFrom (n.splices.size + 1) n.slot

/-- Queues a copy of a frame on a plug. Without headers for the copy the queue counts a drop. -/
def queueCopy (p : Backplane) (plug : Plug) (budget : Nat) (f : Frame) : Backplane :=
  let ((), p) := p.onQueue plug fun q m =>
    match f.copy m with
    | (none, m) => ((), q.countDrop, m)
    | (some copy, m) => ((), (q.push m budget (.last copy)).2)
  p

/-- Queues a chain on a plug. -/
def queueWhole (p : Backplane) (plug : Plug) (budget : Nat) (c : Chain) : Backplane :=
  (p.onQueue plug fun q m => q.push m budget c).2

/-- What a splice does with a chain on an interface: it keeps the consumer's own, copies everybody's and
leaves the rest alone. Answers the chain if it goes on. -/
def intercept (n : Network) (key index : Nat) (c : Chain) : Option Chain × Network :=
  let registry := n.registry key
  if registry.isEmpty then (some c, n)
  else
    match registry.byIndex? index with
    | none => (some c, n)
    | some plug =>
      match c.head.destination? with
      | none => (some c, n)
      | some destination =>
        match Verdict.of destination plug.virtualMac with
        | .foreign => (some c, n)
        | .mine =>
          (none, { n with plane := queueWhole n.plane plug (n.budgetOf key) c })
        | .broadcast =>
          (some c, { n with plane := queueCopy n.plane plug (n.budgetOf key) c.head })

/-- Writes a call down. -/
def note (n : Network) (call : HookCall) : Network :=
  { n with calls := n.calls.push call }

/-- The network after a chain was given back. -/
def releaseChain (n : Network) (c : Chain) : Network :=
  n.setMemory (n.memory.releaseChain c)

/-- Offers a received chain to hooks in turn; answers the chain if it goes on into the host. -/
def offerInput (n : Network) (index : Nat) (c : Chain) : List Hook → Option Chain × Network
  | [] => (some c, n)
  | .foreign h :: _ =>
    let n := n.note (h.seen .input index c)
    if h.passesInput index c then (some c, n) else (none, n.releaseChain c)
  | .splice key :: rest =>
    match n.intercept key index c with
    | (none, n) => (none, n)
    | (some c, n) => offerInput n index c rest

/-- Offers a chain that is sent to hooks in turn; answers the chain if it goes on to the driver. -/
def offerOutput (n : Network) (index : Nat) (c : Chain) :
    List Hook → Except Int (Option Chain) × Network
  | [] => (.ok (some c), n)
  | .foreign h :: _ =>
    let n := n.note (h.seen .output index c)
    match h.passesOutput index c with
    | .error code => (.error code, n.releaseChain c)
    | .ok true => (.ok (some c), n)
    | .ok false => (.ok none, n.releaseChain c)
  | .splice key :: rest =>
    match n.intercept key index c with
    | (none, n) => (.ok none, n)
    | (some c, n) => offerOutput n index c rest

/-- Offers a chain that belongs to nobody to hooks in turn; splices let it pass, and it ends there. -/
def offerOrphan (n : Network) (index : Nat) (c : Chain) : List Hook → Network
  | [] => n.releaseChain c
  | .foreign h :: _ => (n.note (h.seen .orphan index c)).releaseChain c
  | .splice _ :: rest => offerOrphan n index c rest

/-- Tells hooks in turn of an interface that came or went; splices pass it on. -/
def announce (n : Network) (call : String → HookCall) : List Hook → Network
  | [] => n
  | .foreign h :: _ => n.note (call h.name)
  | .splice _ :: rest => announce n call rest

end Network

end Patchbay
