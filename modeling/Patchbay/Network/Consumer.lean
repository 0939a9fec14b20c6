import Patchbay.Frame.Exchange
import Patchbay.Network.Traffic

/-!
# `Patchbay.Network.Consumer` — what a consumer asks of its splice

A consumer plugs and unplugs interfaces, takes what waits for it, sends buffers and asks for memory. Sending
never copies the bytes: a frame for the interface's own address goes up the host's stack, a frame for everybody
goes both ways, and anything else goes to the wire.

## Contents
* `Network.plug`, `Network.unplug`, `Network.unplugEverything`;
* `Network.takeAll`, `Network.takeNext` — what waits, all of it or one frame;
* `Network.submit` — buffers sent as one frame;
* `Network.pages`, `Network.buffer`, `Network.bufferOf` — memory of the splice's budget.
-/

namespace Patchbay

open Budget (Block Failure)

namespace Network

/-- Plugs an interface by name; answers whether it was up. -/
def plug (n : Network) (key : Nat) (name : String) (id : Nat) (mac : Mac) :
    Except NetFailure Bool × Network :=
  n.onRegistry key fun r p => r.plug p (n.budgetOf key) name id mac

/-- Unplugs an id; answers whether it was plugged. -/
def unplug (n : Network) (key id : Nat) : Bool × Network :=
  n.onRegistry key fun r p => r.unplug p id

/-- Unplugs everything; answers how much there was. -/
def unplugEverything (n : Network) (key : Nat) : Nat × Network :=
  n.onRegistry key Registry.unplugEverything

/-- Carries an operation out on the queue of a plug. -/
@[inline] def onQueue {α : Type} (n : Network) (plug : Plug) (f : Queue → Memory → α × Queue × Memory) :
    α × Network :=
  let (answer, plane) := n.plane.onQueue plug f
  (answer, { n with plane := plane })

/-! ## Taking what waits -/

/-- The views of the segments of frames, one after the other. -/
def unwrapAll (m : Memory) : List Frame → List View × Memory
  | [] => ([], m)
  | f :: rest =>
    let (views, m) := f.unwrap m
    let (more, m) := unwrapAll m rest
    (views ++ more, m)

/-- Takes all that waits for an id: one view for each segment, in the order of the queue. -/
def takeAll (n : Network) (key id : Nat) : List View × Network :=
  match (n.registry key).byId? id with
  | none => ([], n)
  | some plug =>
    let (frames, n) := n.onQueue plug Queue.drain
    n.onMemory fun m => unwrapAll m frames

/-- Takes the next frame that waits for an id in one piece: a frame of one segment as it stands, any other
as a copy. A frame that cannot be copied is lost. -/
def takeNext (n : Network) (key id : Nat) : Except NetFailure (Option View) × Network :=
  match (n.registry key).byId? id with
  | none => (.error .notFound, n)
  | some plug =>
    match n.onQueue plug Queue.take? with
    | (none, n) => (.ok none, n)
    | (some f, n) =>
      match f.segments with
      | [segment] => (.ok (some segment.view), n.setMemory n.memory.returnHeader)
      | _ =>
        let (answer, n) := n.onMemory fun m => f.compact m (n.budgetOf key)
        let n := n.setMemory (n.memory.releaseFrame f)
        match answer with
        | .error e => (.error (.memory e), n)
        | .ok view => (.ok (some view), n)

/-! ## Sending -/

/-- Counts a frame that was longer than the MTU. -/
def warnOfLength (n : Network) (plug : Plug) (length : Nat) : Network :=
  match n.plane.table.get? plug.index with
  | none => n
  | some i =>
    if i.mtu < length then
      let line := n.plane.line plug
      { n with plane := n.plane.setLine plug { line with mtuWarnings := line.mtuWarnings + 1 } }
    else n

/-- Sends buffers as one frame on the interface that is plugged under an id. An unknown id and an empty
frame are ignored. -/
def submit (n : Network) (key id : Nat) (buffers : List View) : Except NetFailure Unit × Network :=
  match (n.registry key).byId? id with
  | none => (.ok (), n)
  | some plug =>
    match n.onMemory fun m => Frame.ofBuffers m buffers (some plug.index) with
    | (.error e, n) => (.error (.memory e), n)
    | (.ok f, n) =>
      if f.length = 0 then (.ok (), n.setMemory (n.memory.releaseFrame f))
      else
        let n := n.warnOfLength plug f.length
        if f.destination? = some Mac.broadcast then
          match n.onMemory fun m => f.copy m with
          | (none, n) =>
            (.error (.memory (.poolExhausted f.segments.length)),
              n.setMemory (n.memory.releaseFrame f))
          | (some copy, n) =>
            (.ok (), (n.receive plug.index (.last copy)).transmit plug.index (.last f))
        else if f.destination? = some plug.realMac then
          (.ok (), n.receive plug.index (.last f))
        else (.ok (), n.transmit plug.index (.last f))

/-! ## Memory -/

/-- Asks for memory of the splice's budget. -/
def memoryFor (n : Network) (key : Nat) (kind : Budget.Kind) (size : Nat) :
    Except NetFailure Block × Network :=
  let (answer, n) := n.onMemory fun m => m.alloc (n.budgetOf key) kind none size
  (answer.mapError .memory, n)

/-- Asks for whole pages of zeros. -/
def pages (n : Network) (key count : Nat) : Except NetFailure Block × Network :=
  if count * Budget.pageSize < Budget.sizeBound then
    n.memoryFor key .contiguous (count * Budget.pageSize)
  else (.error (.memory (.exhausted (Budget.sizeBound - 1))), n)

/-- Asks for a block of zeros. -/
def buffer (n : Network) (key size : Nat) : Except NetFailure Block × Network :=
  n.memoryFor key .plain size

/-- Copies bytes into a buffer of the splice's budget. -/
def bufferOf (n : Network) (key : Nat) (bytes : List UInt8) : Except NetFailure View × Network :=
  match n.buffer key bytes.length with
  | (.error e, n) => (.error e, n)
  | (.ok block, n) =>
    let (storage, n) := n.onMemory fun m => m.shareBlock (block.write 0 bytes)
    (.ok (.whole storage), n)

/-- The bytes outstanding in the budget of a splice. -/
def outstanding (n : Network) (key : Nat) : Nat :=
  n.memory.outstanding (n.budgetOf key)

end Network

end Patchbay
