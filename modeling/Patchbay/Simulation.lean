import Patchbay.Echo
import Patchbay.Settings
import Patchbay.Worker.Basic

/-!
# `Patchbay.Simulation` — an echo consumer on a simulated host

One host, one interface, one echo consumer that plugs it. A peer on the wire sends frames to the consumer, and the run
is good if the consumer answers all of them in time and every answer goes to the peer.

Two threads have a part in it. The main one launches the consumer's worker, waits for the interface to be plugged, sends
the frames and waits for the worker to end; the worker's calls the consumer's entry points. Each step of either is one
step here, so that every way in which they can alternate is a sequence of steps.

## Contents
* `Options` — what a run is asked for; `frameFor` — the frame that the peer sends with a sequence number;
* `Fault` — what can be wrong with a run; `Outcome` — the line that sums the run up, and its fault;
* `Stage`, `Move`, `Stage.step`, `Stage.play` — where a run stands, and the steps of the two threads;
* `Stage.conclude` — what the main thread reports where it stops waiting;
* `frameFault?` — which frames are too long to be made;
* `simulate` — the run.
-/

namespace Patchbay.Simulation

/-- What a run is asked for. -/
structure Options where
  /-- The module instance whose settings apply. -/
  name : String := "echo"
  interface : String := "eth0"
  /-- The address that the consumer answers on. -/
  mac : Mac := ⟨[0x02, 0, 0, 0, 0, 0x01], rfl⟩
  frames : Nat := 16
  /-- The bytes of each frame behind its header. -/
  payload : Nat := 64
  /-- How long to wait for the consumer. -/
  timeoutMs : Nat := 5000

/-- The address of the host's interface. -/
def hostMac : Mac := ⟨[0x00, 0x1b, 0x21, 0x00, 0x00, 0x01], rfl⟩

/-- The address of the peer on the wire. -/
def peerMac : Mac := ⟨[0x00, 0x1b, 0x21, 0x00, 0x00, 0xfe], rfl⟩

/-- The bytes of a frame before its payload: both addresses and a type. -/
def headerBytes : Nat := 14

/-- A frame from the peer: both addresses, a type, and bytes that count up from the sequence number. -/
def frameFor (destination : Mac) (payload sequence : Nat) : List UInt8 :=
  destination.octets ++ peerMac.octets ++ [0x88, 0xb5] ++
    (List.range payload).map fun i => UInt8.ofNat (sequence + i)

/-- What is wrong with a run. -/
inductive Fault where
  /-- The consumer did not plug its interface in time. -/
  | neverPlugged (interface : String)
  /-- The consumer did not answer everything in time. -/
  | unfinished (timeoutMs : Nat)
  /-- An answer went to somebody else than the peer. -/
  | misdirected
  /-- A frame is longer than anything that can be addressed. -/
  | unaddressable
  /-- The system allocator has no room for a frame. -/
  | noRoom
deriving DecidableEq, Repr

/-- The wording of a fault. -/
def Fault.message : Fault → String
  | .neverPlugged interface => "consumer never plugged " ++ interface
  | .unfinished timeoutMs => "consumer did not finish within " ++ toString timeoutMs ++ " ms"
  | .misdirected => "echoed frame not addressed to the sender"
  | .unaddressable => "capacity overflow"
  | .noRoom => "memory allocation failed"

/-- The exit code that a fault leads to. A run that cannot even make its frames is broken off: with the code of
a failed thread, or by an abort, which leaves no code. -/
def Fault.code : Fault → Option Nat
  | .unaddressable => some 101
  | .noRoom => none
  | _ => some 1

/-- How a run ends. -/
structure Outcome where
  /-- The summary, if the run got so far. -/
  line : Option String := none
  fault : Option Fault := none
deriving DecidableEq, Repr

/-- The exit code of a run, nought for a good one and none for one that aborts. -/
def Outcome.code (o : Outcome) : Option Nat :=
  match o.fault with
  | none => some 0
  | some fault => fault.code

/-- The summary of a run. -/
def summary (injected echoed : Nat) : String :=
  "injected " ++ toString injected ++ " frames, " ++ toString echoed ++ " echoed"

/-- The flags of the host's interface: up, broadcast, running. -/
def interfaceFlags : Nat := 0x1 + 0x2 + 0x40

/-- A host with the interface and a started splice; answers the interface's index and the splice. -/
def host (o : Options) (s : Settings) : Nat × Nat × Network :=
  let n : Network := {}
  let (index, n) := n.addInterface o.interface (some hostMac) 1500 interfaceFlags
  let (budget, n) := n.onMemory fun m => m.addBudget s.ceiling s.tracking
  let (splice, n) := n.startSplice budget
  (index, splice, n)

/-! ## The two threads -/

/-- Where a run stands. -/
structure Stage where
  network : Network
  echo : Echo
  worker : Worker
  /-- The index of the interface. -/
  index : Nat
  /-- How the entry point that the worker is in returns. -/
  reply : Reply := .done
  /-- Whether the main thread has seen the interface plugged. -/
  ready : Bool := false
  /-- How many frames were sent to the consumer. -/
  injected : Nat := 0

/-- A step of the main thread or one of the worker. -/
inductive Move where
  | main
  | body
deriving DecidableEq, Repr

namespace Stage

/-- A host with the interface, and the consumer's worker launched. -/
def start (o : Options) (s : Settings) : Stage :=
  let (index, splice, n) := host o s
  { network := n
    echo := { splice := splice, mac := o.mac, target := o.frames }
    worker := ({} : Worker).launch.2
    index := index }

/-- Says whether the consumer has its interface. -/
def isPlugged (t : Stage) : Bool :=
  ((t.network.registry t.echo.splice).byId? Echo.plugId).isSome

/-- What an entry point of the consumer does when it is called, and how it will return. -/
def perform (t : Stage) (o : Options) : Callback → Stage
  | .startup =>
    match t.network.plug t.echo.splice o.interface Echo.plugId o.mac with
    | (.ok _, n) => { t with network := n, reply := .done }
    | (.error _, n) => { t with network := n, reply := .failed }
  | .iterate =>
    let (complete, echo, n) := t.echo.iterate t.network
    { t with network := n, echo := echo, reply := if complete then .completed else .done }
  | .finalize => { t with reply := .done }
  | .teardown => { t with network := (t.network.unplug t.echo.splice Echo.plugId).2, reply := .done }

/-- The stage after the next step of the worker, if there is one. -/
def goOn (t : Stage) : Stage :=
  { t with worker := (t.worker.bodyStep? t.reply).getD t.worker }

/-- A step. The main thread looks whether the interface is plugged until it is, sends one frame after the other, and
then waits. -/
def step (o : Options) (t : Stage) : Move → Stage
  | .main =>
    if !t.ready then { t with ready := t.isPlugged }
    else if t.injected < o.frames then
      { t with
        network := t.network.inject t.index (frameFor o.mac o.payload t.injected) Frame.largestSegment
        injected := t.injected + 1 }
    else t
  | .body =>
    match t.worker.phase with
    | .before callback => (t.perform o callback).goOn
    | _ => t.goOn

/-- Steps in order. -/
def play (o : Options) (t : Stage) (moves : List Move) : Stage :=
  moves.foldl (step o) t

end Stage

/-- Says whether an answer goes to the peer. -/
def isForPeer (d : Delivery) : Bool :=
  d.bytes.take 6 == peerMac.octets

/-- What the main thread reports if it stops waiting here: for the worker to end, or because the time is over. -/
def Stage.conclude (o : Options) (t : Stage) : Outcome where
  line := some (summary t.injected t.network.wire.size)
  fault :=
    if t.worker.state ≠ .none then some (.unfinished o.timeoutMs)
    else if t.network.wire.all isForPeer then none
    else some .misdirected

/-! ## A run -/

/-- Why the peer cannot make its frames. -/
def frameFault? (o : Options) : Option Fault :=
  let size := headerBytes + o.payload
  if o.frames = 0 then none
  else if Budget.signedBound ≤ size then some .unaddressable
  else if Budget.Heap.standard size then none
  else some .noRoom

/-- How long the consumer pauses when nothing waits for it, in nanoseconds. -/
def pauseNanoseconds (s : Settings) : Nat :=
  let clock := Clock.ofRate (UInt32.ofNat s.rate)
  clock.pauseTicks 0.01 * clock.tickNanoseconds

/-- A run. The consumer plugs its interface and finds nothing before the frames come, pauses, and then answers all of
them at once; nothing waits after that, so its worker ends then or never. -/
def simulate (o : Options) (s : Settings) : Outcome :=
  let plugged := (Stage.start o s).play o [.body, .body]
  if !plugged.isPlugged || o.timeoutMs = 0 then { fault := some (.neverPlugged o.interface) }
  else
    match frameFault? o with
    | some fault => { fault := some fault }
    | none =>
      let sent := plugged.play o (List.replicate (o.frames + 1) .main)
      if o.timeoutMs * 1000000 < pauseNanoseconds s then sent.conclude o
      else (sent.play o (List.replicate 9 .body)).conclude o

end Patchbay.Simulation
