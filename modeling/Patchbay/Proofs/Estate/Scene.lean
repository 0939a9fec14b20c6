import Mathlib.Data.List.Dedup
import Patchbay.Network.Consumer
import Patchbay.Network.Lifetime

/-!
# `Proofs.Estate.Scene` — a host and everybody who holds something of it

Besides the host there are its callers: whoever makes packets, the consumers, whoever keeps a hook or a plug. A
scene is a network together with all that they hold, and an act is one operation of any of them. An act takes the
items that it names out of the list and puts what it hands out in front; one that names an item that is not there,
or a splice that was never made, does nothing.

## Contents
* `Item`, `Scene` — what callers hold, and the host;
* `BlockAct`, `PacketAct`, `QueueAct`, `HostAct`, `SpliceAct`, `Act`, `Turn` — what they can do, on which thread;
* `Scene.step`, `Scene.run`, `Scene.start`;
* `Scene.segments`, `Scene.frames`, `Scene.views`, `Scene.references`, `Scene.blocks` — all there is, whoever holds it.
-/

namespace Patchbay

open Budget (Block Kind Heap Lane)

/-- Something that a caller holds. -/
inductive Item where
  /-- A header that is in no segment. -/
  | ticket
  | block (b : Block)
  | view (v : View)
  | segment (s : Segment)
  | chain (c : Chain)
  | queue (q : Queue)
  | plug (p : Plug)
deriving DecidableEq

/-- A host and what its callers hold. -/
structure Scene where
  network : Network := {}
  items : List Item := []

/-! ## Acts -/

/-- Budgets, blocks and buffers. Items are named by their place. -/
inductive BlockAct where
  | addBudget (ceiling : Nat) (tracking : Bool)
  | alloc (budget : Nat) (kind : Kind) (comment : Option String) (size : Nat)
  | resize (place size : Nat)
  | write (place start : Nat) (data : List UInt8)
  | free (place : Nat)
  /-- A block becomes a buffer. -/
  | share (place : Nat)
  | collectLeaks (budget : Nat)
  /-- A cluster of the host as a buffer. -/
  | cluster (bytes : List UInt8)
  /-- A further view of a buffer's storage. -/
  | window (place offset length : Nat)
  | dropView (place : Nat)

/-- Headers, segments and packets. -/
inductive PacketAct where
  | ticket
  | dropTicket (place : Nat)
  /-- A segment out of a ticket and a window of a buffer, which stays. The buffer is named among the others. -/
  | segment (ticket view offset length : Nat)
  /-- The header of a segment goes back, the rest becomes a buffer. -/
  | unwrapSegment (place : Nat)
  | dropSegment (place : Nat)
  /-- A packet of segments, each named among those that are left. -/
  | assemble (places : List Nat) (receivedOn : Option Nat)
  | fromBytes (bytes : List UInt8) (cap : Nat) (receivedOn : Option Nat)
  | make (specs : List FrameSpec)
  | copy (place : Nat)
  /-- One packet behind another, which is named among the others. -/
  | append (place other : Nat)
  | takeNext (place : Nat)
  /-- A packet taken apart; the frames behind the first one go. -/
  | intoSegments (place : Nat)
  | setReceivedOn (place : Nat) (receivedOn : Option Nat)
  | drop (place : Nat)
  | wrap (place : Nat)
  | flatten (place budget : Nat)
  /-- A packet over buffers, which stay. -/
  | build (places : List Nat) (receivedOn : Option Nat)

/-- Queues, of their own or of a plug that is held. -/
inductive QueueAct where
  | new
  /-- A packet pushed on a queue; it is named among the others. -/
  | push (place chain budget : Nat)
  | take (place : Nat)
  | drain (place : Nat)
  | clear (place : Nat)
  | countDrop (place : Nat)
  | drop (place : Nat)
  | hold (splice id : Nat)
  | dropPlug (place : Nat)

/-- The host and its hook slot. -/
inductive HostAct where
  | addInterface (name : String) (mac : Option Mac) (mtu flags : Nat)
  | changeTable (f : Table → Table)
  | inject (index : Nat) (bytes : List UInt8) (cap : Nat)
  | send (index : Nat) (bytes : List UInt8)
  | input (index place : Nat)
  | transmit (index place : Nat)
  /-- A packet offered by hand to a hook and those behind it; what they let on comes back. -/
  | offerInput (index place : Nat) (hook : Option Hook)
  | offerOutput (index place : Nat) (hook : Option Hook)
  | offerOrphan (index place : Nat) (hook : Option Hook)
  | announce (call : String → HookCall)
  | exchangeHook (hook : Hook)
  | putHook (hook : Option Hook)
  | unlink (hook : Option Hook)

/-- Splices and what their consumers ask for. -/
inductive SpliceAct where
  | start (budget : Nat)
  | add (budget : Nat)
  | tellPrevious (key : Nat) (hook : Option Hook)
  | hold (key : Nat)
  | drop (key : Nat)
  | tearDown (key : Nat)
  | plug (key : Nat) (name : String) (id : Nat) (mac : Mac)
  | unplug (key id : Nat)
  | unplugEverything (key : Nat)
  | takeAll (key id : Nat)
  | takeNext (key id : Nat)
  /-- Buffers sent as one frame; they stay with the caller. -/
  | submit (key id : Nat) (places : List Nat)
  | pages (key count : Nat)
  | buffer (key size : Nat)
  | bufferOf (key : Nat) (bytes : List UInt8)

/-- Whatever callers can do. -/
inductive Act where
  | block (act : BlockAct)
  | packet (act : PacketAct)
  | queue (act : QueueAct)
  | host (act : HostAct)
  | splice (act : SpliceAct)

/-- An act, the lane of the thread that it is done on, and which requests the system allocator grants just then. -/
structure Turn where
  act : Act
  lane : Lane := Budget.Lane.first
  heap : Heap := Heap.standard

namespace Scene

/-! ## Steps -/

/-- The segments at places, each taken out before the next is looked for, and the items that are left. -/
def pickSegments : List Nat → List Item → List Segment × List Item
  | [], items => ([], items)
  | place :: rest, items =>
    match items[place]? with
    | some (.segment s) =>
      let (segments, items) := pickSegments rest (items.eraseIdx place)
      (s :: segments, items)
    | _ => pickSegments rest items

/-- The view that an item is. -/
def view? : Item → Option View
  | .view v => some v
  | _ => none

/-- The views at places; all of them stay. -/
def viewsAt (places : List Nat) (items : List Item) : List View :=
  places.filterMap fun place => items[place]?.bind view?

/-- Carries an operation out on a queue of its own or on that of a plug. -/
def onQueueItem {α : Type} (n : Network) (f : Queue → Memory → α × Queue × Memory) :
    Item → Option (α × Item × Network)
  | .queue q =>
    let (answer, q, m) := f q n.memory
    some (answer, .queue q, n.setMemory m)
  | .plug p =>
    let (answer, n) := n.onQueue p f
    some (answer, .plug p, n)
  | _ => none

/-- An act on blocks and buffers. -/
def stepBlock (s : Scene) : BlockAct → Scene
  | .addBudget ceiling tracking =>
    { s with network := (s.network.onMemory fun m => m.addBudget ceiling tracking).2 }
  | .alloc budget kind comment size =>
    let (answer, n) := s.network.onMemory fun m => m.alloc budget kind comment size
    ⟨n, answer.toOption.toList.map .block ++ s.items⟩
  | .resize place size =>
    match s.items[place]? with
    | some (.block b) =>
      match s.network.memory.resize b size with
      | (.ok b, m) => ⟨s.network.setMemory m, .block b :: s.items.eraseIdx place⟩
      | (.error _, m) => { s with network := s.network.setMemory m }
    | _ => s
  | .write place start data =>
    match s.items[place]? with
    | some (.block b) => { s with items := .block (b.write start data) :: s.items.eraseIdx place }
    | _ => s
  | .free place =>
    match s.items[place]? with
    | some (.block b) => ⟨s.network.setMemory (s.network.memory.free b), s.items.eraseIdx place⟩
    | _ => s
  | .share place =>
    match s.items[place]? with
    | some (.block b) =>
      let (storage, n) := s.network.onMemory fun m => m.shareBlock b
      ⟨n, .view (.whole storage) :: s.items.eraseIdx place⟩
    | _ => s
  | .collectLeaks budget =>
    { s with network := (s.network.onMemory fun m => m.collectLeaks budget).2 }
  | .cluster bytes =>
    let (storage, n) := s.network.onMemory fun m => m.shareCluster bytes
    ⟨n, .view (.whole storage) :: s.items⟩
  | .window place offset length =>
    match s.items[place]? with
    | some (.view v) =>
      ⟨s.network.setMemory (s.network.memory.retain v.storage),
        .view (v.window offset length) :: s.items⟩
    | _ => s
  | .dropView place =>
    match s.items[place]? with
    | some (.view v) =>
      ⟨s.network.setMemory (s.network.memory.release v.storage), s.items.eraseIdx place⟩
    | _ => s

/-- An act on headers, segments and packets. -/
def stepPacket (s : Scene) : PacketAct → Scene
  | .ticket =>
    match s.network.memory.takeHeader? with
    | some m => ⟨s.network.setMemory m, .ticket :: s.items⟩
    | none => s
  | .dropTicket place =>
    match s.items[place]? with
    | some .ticket => ⟨s.network.setMemory s.network.memory.returnHeader, s.items.eraseIdx place⟩
    | _ => s
  | .segment ticket view offset length =>
    match s.items[ticket]?, (s.items.eraseIdx ticket)[view]? with
    | some .ticket, some (.view v) =>
      ⟨s.network.setMemory (s.network.memory.retain v.storage),
        .segment (.clip v.storage offset length) :: s.items.eraseIdx ticket⟩
    | _, _ => s
  | .unwrapSegment place =>
    match s.items[place]? with
    | some (.segment g) =>
      ⟨s.network.setMemory s.network.memory.returnHeader, .view g.view :: s.items.eraseIdx place⟩
    | _ => s
  | .dropSegment place =>
    match s.items[place]? with
    | some (.segment g) =>
      ⟨s.network.setMemory (s.network.memory.releaseSegment g), s.items.eraseIdx place⟩
    | _ => s
  | .assemble places receivedOn =>
    let (segments, items) := pickSegments places s.items
    { s with items := .chain (.last ⟨segments, receivedOn⟩) :: items }
  | .fromBytes bytes cap receivedOn =>
    let (frame?, n) := s.network.onMemory fun m => Frame.ofBytes m bytes cap receivedOn
    ⟨n, frame?.toList.map (.chain ∘ .last) ++ s.items⟩
  | .make specs =>
    let (chain?, n) := s.network.onMemory fun m => Chain.make m specs
    ⟨n, chain?.toList.map .chain ++ s.items⟩
  | .copy place =>
    match s.items[place]? with
    | some (.chain c) =>
      let (frame?, n) := s.network.onMemory fun m => c.head.copy m
      ⟨n, frame?.toList.map (.chain ∘ .last) ++ s.items⟩
    | _ => s
  | .append place other =>
    match s.items[place]?, (s.items.eraseIdx place)[other]? with
    | some (.chain c), some (.chain d) =>
      { s with items := .chain (c.append d) :: (s.items.eraseIdx place).eraseIdx other }
    | _, _ => s
  | .takeNext place =>
    match s.items[place]? with
    | some (.chain c) =>
      { s with items :=
          .chain (.last c.head) :: (c.rest?.toList.map .chain ++ s.items.eraseIdx place) }
    | _ => s
  | .intoSegments place =>
    match s.items[place]? with
    | some (.chain c) =>
      ⟨s.network.setMemory (s.network.memory.releaseFrames c.frames.tail),
        c.head.segments.map .segment ++ s.items.eraseIdx place⟩
    | _ => s
  | .setReceivedOn place receivedOn =>
    match s.items[place]? with
    | some (.chain c) =>
      { s with items :=
          .chain (c.setHead { c.head with receivedOn := receivedOn }) :: s.items.eraseIdx place }
    | _ => s
  | .drop place =>
    match s.items[place]? with
    | some (.chain c) => ⟨s.network.releaseChain c, s.items.eraseIdx place⟩
    | _ => s
  | .wrap place =>
    match s.items[place]? with
    | some (.chain c) =>
      let n := s.network.setMemory (s.network.memory.releaseFrames c.frames.tail)
      let (views, n) := n.onMemory fun m => c.head.unwrap m
      ⟨n, views.map .view ++ s.items.eraseIdx place⟩
    | _ => s
  | .flatten place budget =>
    match s.items[place]? with
    | some (.chain c) =>
      let (answer, n) := s.network.onMemory fun m => c.head.compact m budget
      ⟨n, answer.toOption.toList.map .view ++ s.items⟩
    | _ => s
  | .build places receivedOn =>
    let (answer, n) := s.network.onMemory fun m =>
      Frame.ofBuffers m (viewsAt places s.items) receivedOn
    ⟨n, answer.toOption.toList.map (.chain ∘ .last) ++ s.items⟩

/-- An act on a queue, of its own or of a plug. -/
def stepQueue (s : Scene) : QueueAct → Scene
  | .new => { s with items := .queue {} :: s.items }
  | .push place chain budget =>
    match s.items[place]?, (s.items.eraseIdx place)[chain]? with
    | some item, some (.chain c) =>
      match onQueueItem s.network (fun q m => q.push m budget c) item with
      | some (_, item, n) => ⟨n, item :: (s.items.eraseIdx place).eraseIdx chain⟩
      | none => s
    | _, _ => s
  | .take place =>
    match s.items[place]?.bind (onQueueItem s.network Queue.take?) with
    | some (frame?, item, n) =>
      ⟨n, item :: (frame?.toList.map (.chain ∘ .last) ++ s.items.eraseIdx place)⟩
    | none => s
  | .drain place =>
    match s.items[place]?.bind (onQueueItem s.network Queue.drain) with
    | some (frames, item, n) =>
      ⟨n, item :: (frames.map (.chain ∘ .last) ++ s.items.eraseIdx place)⟩
    | none => s
  | .clear place =>
    match s.items[place]?.bind (onQueueItem s.network Queue.clear) with
    | some (_, item, n) => ⟨n, item :: s.items.eraseIdx place⟩
    | none => s
  | .countDrop place =>
    match s.items[place]?.bind (onQueueItem s.network fun q m => ((), q.countDrop, m)) with
    | some (_, item, n) => ⟨n, item :: s.items.eraseIdx place⟩
    | none => s
  | .drop place =>
    match s.items[place]? with
    | some (.queue q) =>
      ⟨s.network.setMemory (q.clear s.network.memory).2.2, s.items.eraseIdx place⟩
    | _ => s
  | .hold splice id =>
    match (s.network.registry splice).byId? id with
    | some p =>
      ⟨{ s.network with plane := s.network.plane.holdPlug p }, .plug p :: s.items⟩
    | none => s
  | .dropPlug place =>
    match s.items[place]? with
    | some (.plug p) =>
      ⟨{ s.network with plane := s.network.plane.dropPlug p }, s.items.eraseIdx place⟩
    | _ => s

/-- An act on the host. -/
def stepHost (s : Scene) : HostAct → Scene
  | .addInterface name mac mtu flags =>
    { s with network := (s.network.addInterface name mac mtu flags).2 }
  | .changeTable f => { s with network := s.network.modifyTable f }
  | .inject index bytes cap => { s with network := s.network.inject index bytes cap }
  | .send index bytes => { s with network := (s.network.send index bytes).2 }
  | .input index place =>
    match s.items[place]? with
    | some (.chain c) => ⟨s.network.receive index c, s.items.eraseIdx place⟩
    | _ => s
  | .transmit index place =>
    match s.items[place]? with
    | some (.chain c) => ⟨s.network.transmit index c, s.items.eraseIdx place⟩
    | _ => s
  | .offerInput index place hook =>
    match s.items[place]? with
    | some (.chain c) =>
      let (chain?, n) := s.network.offerInput index c
        (s.network.hooksFrom (s.network.splices.size + 1) hook)
      ⟨n, chain?.toList.map .chain ++ s.items.eraseIdx place⟩
    | _ => s
  | .offerOutput index place hook =>
    match s.items[place]? with
    | some (.chain c) =>
      let (answer, n) := s.network.offerOutput index c
        (s.network.hooksFrom (s.network.splices.size + 1) hook)
      ⟨n, answer.toOption.join.toList.map .chain ++ s.items.eraseIdx place⟩
    | _ => s
  | .offerOrphan index place hook =>
    match s.items[place]? with
    | some (.chain c) =>
      ⟨s.network.offerOrphan index c (s.network.hooksFrom (s.network.splices.size + 1) hook),
        s.items.eraseIdx place⟩
    | _ => s
  | .announce call => { s with network := s.network.announce call s.network.path }
  | .exchangeHook hook => { s with network := (s.network.exchangeHook hook).2 }
  | .putHook hook => { s with network := (s.network.link hook).putHook hook }
  | .unlink hook => { s with network := s.network.unlink hook }

/-- An act on splices. -/
def stepSplice (s : Scene) : SpliceAct → Scene
  | .start budget => { s with network := (s.network.startSplice budget).2 }
  | .add budget => { s with network := (s.network.addSplice budget).2 }
  | .tellPrevious key hook => { s with network := s.network.tellPrevious key hook }
  | .hold key => { s with network := s.network.holdSplice key }
  | .drop key => { s with network := s.network.dropSplice key }
  | .tearDown key => { s with network := s.network.tearDown key }
  | .plug key name id mac =>
    if key < s.network.splices.size then
      { s with network := (s.network.plug key name id mac).2 }
    else s
  | .unplug key id => { s with network := (s.network.unplug key id).2 }
  | .unplugEverything key => { s with network := (s.network.unplugEverything key).2 }
  | .takeAll key id =>
    let (views, n) := s.network.takeAll key id
    ⟨n, views.map .view ++ s.items⟩
  | .takeNext key id =>
    let (answer, n) := s.network.takeNext key id
    ⟨n, answer.toOption.join.toList.map .view ++ s.items⟩
  | .submit key id places =>
    { s with network := (s.network.submit key id (viewsAt places s.items)).2 }
  | .pages key count =>
    let (answer, n) := s.network.pages key count
    ⟨n, answer.toOption.toList.map .block ++ s.items⟩
  | .buffer key size =>
    let (answer, n) := s.network.buffer key size
    ⟨n, answer.toOption.toList.map .block ++ s.items⟩
  | .bufferOf key bytes =>
    let (answer, n) := s.network.bufferOf key bytes
    ⟨n, answer.toOption.toList.map .view ++ s.items⟩

/-- One act of any caller. -/
def perform (s : Scene) : Act → Scene
  | .block act => s.stepBlock act
  | .packet act => s.stepPacket act
  | .queue act => s.stepQueue act
  | .host act => s.stepHost act
  | .splice act => s.stepSplice act

/-- An act on a thread. -/
def step (s : Scene) (t : Turn) : Scene :=
  let m := s.network.memory
  perform { s with network := s.network.setMemory { m with heap := t.heap, lane := t.lane } } t.act

/-- Acts one after another. -/
def run (s : Scene) (turns : List Turn) : Scene :=
  turns.foldl step s

/-- A host whose pool has a limit or none, and nobody who holds anything. -/
def start (limit : Option Nat) : Scene :=
  { network := { plane := { memory := { pool := { limit := limit } } } } }

end Scene

/-! ## All there is -/

namespace Item

/-- Says whether an item is a bare header. -/
def isTicket : Item → Bool
  | .ticket => true
  | _ => false

/-- The segments in an item. -/
def segments : Item → List Segment
  | .segment g => [g]
  | .chain c => c.frames.flatMap Frame.segments
  | .queue q => q.frames.flatMap Frame.segments
  | _ => []

/-- The frames in an item. -/
def frames : Item → List Frame
  | .chain c => c.frames
  | .queue q => q.frames
  | _ => []

/-- The buffers among items. -/
def views : Item → List View
  | .view v => [v]
  | _ => []

/-- The blocks in an item that are behind no storage. -/
def blocks : Item → List Block
  | .block b => [b]
  | .queue q => q.nodes.map Node.charge
  | _ => []

/-- The plugs among items. -/
def plugs : Item → List Plug
  | .plug p => [p]
  | _ => []

end Item

namespace Scene

/-- The memory of the host. -/
def memory (s : Scene) : Memory := s.network.memory

/-- The headers that are in no segment. -/
def tickets (s : Scene) : Nat := s.items.countP Item.isTicket

/-- The queues of all plugs. -/
def queues (s : Scene) : List Queue := s.network.plane.lines.toList.map Line.queue

/-- The segments, held bare or in a packet, by a caller or in a queue. -/
def segments (s : Scene) : List Segment :=
  s.items.flatMap Item.segments ++ s.queues.flatMap fun q => q.frames.flatMap Frame.segments

/-- The frames, in a packet or a queue of a caller or in the queue of a plug. -/
def frames (s : Scene) : List Frame :=
  s.items.flatMap Item.frames ++ s.queues.flatMap Queue.frames

/-- The buffers. -/
def views (s : Scene) : List View := s.items.flatMap Item.views

/-- The storage that each segment and each buffer points into. -/
def references (s : Scene) : List Storage :=
  s.segments.map Segment.storage ++ s.views.map View.storage

/-- The plugs, once for each holder. -/
def plugs (s : Scene) : List Plug :=
  s.items.flatMap Item.plugs ++ s.network.splices.toList.flatMap fun p => p.registry.plugs

/-- The blocks that are behind no storage: those that callers have, and those that pay for a plug or for a place
in a queue. -/
def blocks (s : Scene) : List Block :=
  s.items.flatMap Item.blocks ++ s.plugs.dedup.map Plug.record ++
    s.queues.flatMap fun q => q.nodes.map Node.charge

end Scene

end Patchbay
