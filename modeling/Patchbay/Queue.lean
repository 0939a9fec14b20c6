import Patchbay.Frame.Chain

/-!
# `Patchbay.Queue` — frames that wait for a consumer

A queue is a list of nodes, newest first, and is served from the front. A node holds a whole chain and is paid
for with a small block of the consumer's budget; when the budget refuses the block, the chain is dropped.

## Contents
* `Node`, `Queue`, `Queue.frames` — the frames in the order in which they are served;
* `Queue.push`, `Queue.take?`, `Queue.drain`, `Queue.clear`, `Queue.countDrop`;
* `Memory.releaseNode` — a node given back unread;
* `Queue.drain_eq` — all frames are those in the order in which they are served.
-/

namespace Patchbay

open Budget (Block)

/-- A waiting chain and the block that pays for its place. -/
structure Node where
  chain : Chain
  charge : Block
deriving DecidableEq

/-- Frames that wait for a consumer, with the counters of the queue. -/
structure Queue where
  nodes : List Node := []
  /-- Chains that were let in. -/
  admitted : Nat := 0
  /-- Chains that were not let in. -/
  dropped : Nat := 0
  /-- Frames that were taken out. -/
  extracted : Nat := 0
deriving DecidableEq

/-- Gives back a node unread. -/
def Memory.releaseNode (m : Memory) (n : Node) : Memory :=
  (m.releaseChain n.chain).free n.charge

namespace Queue

/-- The bytes that a node is paid for with. -/
def nodeSize : Nat := 88

/-- What a leak report says of a node's block. -/
def nodeNote : String := "rx queue node"

/-- The frames in the order in which they are served. -/
def frames (q : Queue) : List Frame :=
  q.nodes.flatMap fun n => n.chain.frames

/-- The number of nodes. -/
def size (q : Queue) : Nat := q.nodes.length

/-- Counts a chain that was not let in. -/
def countDrop (q : Queue) : Queue :=
  { q with dropped := q.dropped + 1 }

/-- Puts a chain at the front, paid for out of a budget; answers whether it was let in. -/
def push (q : Queue) (m : Memory) (budget : Nat) (c : Chain) : Bool × Queue × Memory :=
  match m.alloc budget .plain (some nodeNote) nodeSize with
  | (.error _, m) => (false, q.countDrop, m.releaseChain c)
  | (.ok charge, m) => (true, { q with nodes := ⟨c, charge⟩ :: q.nodes, admitted := q.admitted + 1 }, m)

/-- Takes the first frame. A node with further frames keeps its place and its block. -/
def take? (q : Queue) (m : Memory) : Option Frame × Queue × Memory :=
  match q.nodes with
  | [] => (none, q, m)
  | node :: rest =>
    match node.chain.rest? with
    | some chain =>
      (some node.chain.head,
        { q with nodes := { node with chain := chain } :: rest, extracted := q.extracted + 1 }, m)
    | none =>
      (some node.chain.head, { q with nodes := rest, extracted := q.extracted + 1 },
        m.free node.charge)

/-- Takes the frames out of nodes in order, behind those that were taken before; each node is given back when it is
empty. -/
def emptyEach (taken : List Frame) (m : Memory) : List Node → List Frame × Memory
  | [] => (taken, m)
  | node :: rest => emptyEach (node.chain.takeEach taken) (m.free node.charge) rest

/-- Takes all frames. -/
def drain (q : Queue) (m : Memory) : List Frame × Queue × Memory :=
  let (frames, m) := emptyEach [] m q.nodes
  (frames, { q with nodes := [], extracted := q.extracted + frames.length }, m)

/-- Gives all nodes back unread; answers how many there were. -/
def clear (q : Queue) (m : Memory) : Nat × Queue × Memory :=
  (q.nodes.length, { q with nodes := [] }, q.nodes.foldl Memory.releaseNode m)

/-! ## The frames that each operation leaves -/

theorem frames_push (q : Queue) (m : Memory) (budget : Nat) (c : Chain) :
    (q.push m budget c).2.1.frames =
      if (q.push m budget c).1 then c.frames ++ q.frames else q.frames := by
  unfold push
  split <;> simp [frames, countDrop]

theorem frames_take? (q : Queue) (m : Memory) :
    (q.take? m).1 = q.frames.head? ∧ (q.take? m).2.1.frames = q.frames.tail := by
  obtain ⟨nodes, admitted, dropped, extracted⟩ := q
  cases nodes with
  | nil => simp [take?, frames]
  | cons node rest =>
    obtain ⟨chain, charge⟩ := node
    cases chain <;> simp [take?, frames, Chain.rest?, Chain.head, Chain.frames]

theorem emptyEach_eq (taken : List Frame) (m : Memory) (nodes : List Node) :
    emptyEach taken m nodes =
      (taken ++ nodes.flatMap (fun n => n.chain.frames), nodes.foldl (fun m n => m.free n.charge) m) := by
  induction nodes generalizing taken m with
  | nil => simp [emptyEach]
  | cons node rest ih =>
    rw [emptyEach, ih, Chain.takeEach_eq, List.append_assoc, List.flatMap_cons, List.foldl_cons]

/-- Node by node and frame by frame, a queue is emptied of its frames in order. -/
theorem drain_eq (q : Queue) (m : Memory) :
    q.drain m = (q.frames, { q with nodes := [], extracted := q.extracted + q.frames.length },
      q.nodes.foldl (fun m n => m.free n.charge) m) := by
  rw [drain, emptyEach_eq, List.nil_append]
  rfl

theorem frames_drain (q : Queue) (m : Memory) :
    (q.drain m).1 = q.frames ∧ (q.drain m).2.1.frames = [] := by
  simp [drain_eq, frames]

theorem frames_clear (q : Queue) (m : Memory) : (q.clear m).2.1.frames = [] := by
  simp [clear, frames]

end Queue

end Patchbay
