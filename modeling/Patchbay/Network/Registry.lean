import Patchbay.Host.Interface
import Patchbay.Queue

/-!
# `Patchbay.Network.Registry` — interfaces that are plugged for a consumer

A consumer plugs an interface of the host under an id of its own choice. The registry keeps one plug for each;
neither an id nor an interface is plugged twice. While an interface is plugged its MTU is no smaller than an
Ethernet frame, and it is marked as hooked if nothing else was attached to it.

Several registries work on one backplane: the memory, the interface table and the lines. A line is the
changing side of a plug, its queue and its counters. It outlives the plug's place in the registry for as long
as somebody holds the plug.

## Contents
* `NetFailure` — why a network operation is refused;
* `Plug`, `Line`, `Backplane`, `Registry`;
* `Backplane.holdPlug`, `Backplane.dropPlug` — one holder more, one less;
* `Backplane.onQueue` — an operation on a plug's queue;
* `Registry.plug`, `Registry.unplug`, `Registry.unplugEverything` — the operations;
* `Registry.byId?`, `Registry.byIndex?`, `Registry.byName?` — the look-ups.
-/

namespace Patchbay

open Budget (Block Failure)

/-- Why a network operation is refused. -/
inductive NetFailure where
  /-- There is no such interface or id. -/
  | notFound
  /-- Memory was refused. -/
  | memory (cause : Failure)
  /-- The id or the interface is plugged already. -/
  | alreadyPlugged
  /-- An output hook failed. -/
  | hook (code : Int)
deriving DecidableEq, Repr

/-- The wording of a refusal. -/
def NetFailure.message : NetFailure → String
  | .notFound => "no such interface or consumer id"
  | .memory cause => cause.message
  | .alreadyPlugged => "interface or consumer id is already plugged"
  | .hook code => "output hook failed with code " ++ toString code

/-- An interface bound to a consumer's id, as it was when it was plugged. -/
structure Plug where
  /-- The line that belongs to it. -/
  key : Nat
  id : Nat
  index : Nat
  name : String
  realMac : Mac
  /-- The address that the consumer listens on. -/
  virtualMac : Mac
  flags : Nat
  /-- Whether plugging it set the mark on the interface. -/
  marked : Bool
  /-- The block that pays for it. -/
  record : Block
deriving DecidableEq

/-- The changing side of a plug. -/
structure Line where
  queue : Queue := {}
  /-- Frames sent that were longer than the MTU. -/
  mtuWarnings : Nat := 0
  /-- How many hold the plug. -/
  holders : Nat := 1
deriving DecidableEq

/-- What all registries on a host work on. -/
structure Backplane where
  memory : Memory := {}
  table : Table := {}
  /-- The lines by key. -/
  lines : Array Line := #[]

namespace Backplane

/-- The line of a plug. -/
@[inline] def line (p : Backplane) (plug : Plug) : Line :=
  p.lines.getD plug.key {}

/-- The backplane with the line of a plug replaced. -/
@[inline] def setLine (p : Backplane) (plug : Plug) (l : Line) : Backplane :=
  { p with lines := p.lines.setIfInBounds plug.key l }

/-- Carries an operation out on the queue of a plug. -/
@[inline] def onQueue {α : Type} (p : Backplane) (plug : Plug) (f : Queue → Memory → α × Queue × Memory) :
    α × Backplane :=
  let line := p.line plug
  let (answer, queue, memory) := f line.queue p.memory
  (answer, { p.setLine plug { line with queue := queue } with memory := memory })

/-- One more holder of a plug. -/
def holdPlug (p : Backplane) (plug : Plug) : Backplane :=
  let line := p.line plug
  p.setLine plug { line with holders := line.holders + 1 }

/-- One holder of a plug less; with the last one its queue and its record go. -/
def dropPlug (p : Backplane) (plug : Plug) : Backplane :=
  let line := p.line plug
  let p := p.setLine plug { line with holders := line.holders - 1 }
  if line.holders ≤ 1 then
    let ((), p) := p.onQueue plug fun q m => ((), (q.clear m).2)
    { p with memory := p.memory.free plug.record }
  else p

end Backplane

/-- The plugs of one consumer in the order in which they were plugged. The number of plugs is kept apart,
so that the common case of none is seen at once. -/
structure Registry where
  plugs : List Plug := []
  count : Nat := 0
deriving DecidableEq

namespace Registry

/-- The bytes that a plug is paid for with. -/
def recordSize : Nat := 168

/-- What a leak report says of a plug's block. -/
def recordNote : String := "plugged interface record"

/-- The least MTU of a plugged interface: a whole Ethernet frame. -/
def leastMtu : Nat := 1514

/-- Says whether nothing is plugged. -/
def isEmpty (r : Registry) : Bool := r.count == 0

/-- The ids in plug order. -/
def ids (r : Registry) : List Nat := r.plugs.map (·.id)

/-- The plug with an id. -/
def byId? (r : Registry) (id : Nat) : Option Plug := r.plugs.find? (·.id = id)

/-- The plug of an interface. -/
def byIndex? (r : Registry) (index : Nat) : Option Plug := r.plugs.find? (·.index = index)

/-- The plug of the interface with a name. -/
def byName? (r : Registry) (name : String) : Option Plug := r.plugs.find? (sameName ·.name name)

/-- Says whether an id or an interface is taken. -/
def isTaken (r : Registry) (id index : Nat) : Bool :=
  r.plugs.any fun plug => plug.id == id || plug.index == index

/-- An interface as it is while it is plugged. -/
def hooked (i : Interface) : Interface :=
  { i with
    mtu := max i.mtu leastMtu
    attachment := if i.attachment = .none then .synthetic else i.attachment }

/-- An interface without the mark that plugging sets. -/
def unmarked (i : Interface) : Interface :=
  { i with attachment := if i.attachment = .synthetic then .none else i.attachment }

/-- Plugs the interface with a name under an id; answers whether it was up. -/
def plug (r : Registry) (p : Backplane) (budget : Nat) (name : String) (id : Nat)
    (virtualMac : Mac) : Except NetFailure Bool × Registry × Backplane :=
  match p.table.find? name with
  | none => (.error .notFound, r, p)
  | some i =>
    match i.mac? with
    | none => (.error .notFound, r, p)
    | some realMac =>
      if r.isTaken id i.index then (.error .alreadyPlugged, r, p)
      else
        match p.memory.alloc budget .plain (some recordNote) recordSize with
        | (.error e, m) => (.error (.memory e), r, { p with memory := m })
        | (.ok record, m) =>
          let plug : Plug :=
            { key := p.lines.size, id := id, index := i.index, name := i.name, realMac := realMac,
              virtualMac := virtualMac, flags := i.flags, marked := i.attachment = .none,
              record := record }
          (.ok i.isUp, ⟨r.plugs ++ [plug], r.count + 1⟩,
            { memory := m, table := p.table.modifyNamed name hooked, lines := p.lines.push {} })

/-- Unplugs an id; answers whether it was plugged. What still waits in its queue is given back unread. -/
def unplug (r : Registry) (p : Backplane) (id : Nat) : Bool × Registry × Backplane :=
  match r.byId? id with
  | none => (false, r, p)
  | some plug =>
    let table := if plug.marked then p.table.modify plug.index unmarked else p.table
    let (_, p) := { p with table := table }.onQueue plug Queue.clear
    (true, ⟨r.plugs.eraseP (·.id = id), r.count - 1⟩, p.dropPlug plug)

/-- Unplugs the ids of a list in order; answers how many were plugged. -/
def unplugEach (r : Registry) (p : Backplane) : List Nat → Nat × Registry × Backplane
  | [] => (0, r, p)
  | id :: rest =>
    let (was, r, p) := r.unplug p id
    let (n, r, p) := unplugEach r p rest
    (if was then n + 1 else n, r, p)

/-- Unplugs everything; answers how much there was. -/
def unplugEverything (r : Registry) (p : Backplane) : Nat × Registry × Backplane :=
  r.unplugEach p r.ids

end Registry

end Patchbay
