import Patchbay.Network.Passage

/-!
# `Patchbay.Network.Traffic` — frames in and out of the host

A received chain goes through the hooks and, if it goes on, to the host's stack; a chain that the stack sends
goes through the hooks and, if it goes on, to the wire. A driver puts chains on the wire without asking the
hooks.

## Contents
* `Network.receive`, `Network.transmit` — the two paths of the host;
* `Network.inject`, `Network.send` — bytes from the wire and from the stack;
* `Network.indexCount`, `Network.addInterface` — a further interface of the host.
-/

namespace Patchbay

namespace Network

/-- The network after a chain reached the host's stack. -/
def reachStack (n : Network) (index : Nat) (c : Chain) : Network :=
  { n with stack := n.stack ++ (Delivery.ofChain index c).toArray }.releaseChain c

/-- The network after a chain reached the wire. -/
def reachWire (n : Network) (index : Nat) (c : Chain) : Network :=
  { n with wire := n.wire ++ (Delivery.ofChain index c).toArray }.releaseChain c

/-- Hands a chain to the host as received on an interface; its first frame is marked so. -/
def receive (n : Network) (index : Nat) (c : Chain) : Network :=
  let c := c.setHead { c.head with receivedOn := some index }
  match n.offerInput index c n.path with
  | (none, n) => n
  | (some c, n) => n.reachStack index c

/-- Hands a chain to the driver of an interface. -/
def transmit (n : Network) (index : Nat) (c : Chain) : Network :=
  n.reachWire index c

/-- Bytes that arrive on an interface from the wire, in segments of at most `cap` bytes. Without headers
they are lost. -/
def inject (n : Network) (index : Nat) (bytes : List UInt8) (cap : Nat) : Network :=
  match n.onMemory fun m => Frame.ofBytes m bytes cap (some index) with
  | (none, n) => n
  | (some f, n) => n.receive index (.last f)

/-- Bytes that the host's stack sends on an interface. Without headers they are lost. -/
def send (n : Network) (index : Nat) (bytes : List UInt8) : Except NetFailure Unit × Network :=
  match n.onMemory fun m => Frame.ofBytes m bytes Frame.largestSegment none with
  | (none, n) => (.ok (), n)
  | (some f, n) =>
    match n.offerOutput index (.last f) n.path with
    | (.error code, n) => (.error (.hook code), n)
    | (.ok none, n) => (.ok (), n)
    | (.ok (some c), n) => (.ok (), n.reachWire index c)

/-! ## Interfaces -/

/-- How many indices there are. -/
def indexCount : Nat := 65536

/-- The network with its interface table changed. -/
def modifyTable (n : Network) (f : Table → Table) : Network :=
  { n with plane := { n.plane with table := f n.plane.table } }

/-- A further interface, with an Ethernet address or with an address of another link type; answers its
index. Indices start over behind the last, and an interface that had the index before is gone. -/
def addInterface (n : Network) (name : String) (mac : Option Mac) (mtu flags : Nat) :
    Nat × Network :=
  (n.nextIndex,
    { n with nextIndex := (n.nextIndex + 1) % indexCount }.modifyTable fun t =>
      t.insert { index := n.nextIndex, name := name, mtu := mtu, flags := flags, addresses := [mac] })

end Network

end Patchbay
