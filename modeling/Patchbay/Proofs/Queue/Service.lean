import Patchbay.Proofs.Budget.Admission
import Patchbay.Proofs.Estate.Lifetime
import Patchbay.Proofs.Inbox.Granting
import Patchbay.Proofs.Queue.Balance

/-!
# `Proofs.Queue.Service` — a queue is a list of frames, and pays for its nodes

Whoever uses a queue sees the frames in it as one list: chains go in front of it, frames are taken from its front, one
by one or all together. How the frames stand in nodes shows in the budget only, which pays for each node until the last
frame of it leaves. Taking frames until there are none is the same as taking all.

## Contents
* `Queue.Desk`, `Queue.Call`, `Queue.Reply`, `Desk.serve`, `Desk.serveAll` — a queue in use on a host;
* `Queue.Serves`, `Queue.ServesAll` — what the same calls do with a list;
* `Queue.PaidBy` — what a budget tells of the nodes;
* `Queue.drain_of_take?`, `Queue.takes_eq_drain` — one frame and then all the others, and one after the other;
* `Desk.run_serves` — whatever is done with the queue, and beside it.
-/

namespace Patchbay

open Budget (Block Kind shown)

namespace Queue

/-! ## A queue in use -/

/-- A queue beside a host and everybody who holds something of it. -/
structure Desk where
  queue : Queue := {}
  scene : Scene

/-- What is done with a queue, or beside it. -/
inductive Call where
  /-- A chain that a caller has is pushed. -/
  | push (place : Nat)
  | take
  | drain
  | clear
  /-- Somebody does something else, and budgets may answer differently from then on. -/
  | elsewhere (t : Turn)

/-- What comes of a call. -/
inductive Reply where
  | nothing
  | pushed (c : Chain) (letIn : Bool)
  | taken (frame? : Option Frame)
  | drained (frames : List Frame)
  | cleared (nodes : Nat)

namespace Desk

/-- A desk where a queue and its memory are different, and the callers have these items. -/
def turnTo (d : Desk) (after : Queue × Memory) (items : List Item) : Desk :=
  ⟨after.1, ⟨d.scene.network.setMemory after.2, items⟩⟩

/-- The host with the queue among what callers have. -/
def whole (d : Desk) : Scene :=
  { d.scene with items := .queue d.queue :: d.scene.items }

/-- One call on a queue whose nodes a budget pays for. What is taken out goes to the callers. -/
def serve (budget : Nat) (d : Desk) : Call → Reply × Desk
  | .push place =>
    match d.scene.items[place]? with
    | some (.chain c) =>
      let (letIn, after) := d.queue.push d.scene.memory budget c
      (.pushed c letIn, d.turnTo after (d.scene.items.eraseIdx place))
    | _ => (.nothing, d)
  | .take =>
    let (frame?, after) := d.queue.take? d.scene.memory
    (.taken frame?, d.turnTo after (frame?.toList.map (.chain ∘ .last) ++ d.scene.items))
  | .drain =>
    let (frames, after) := d.queue.drain d.scene.memory
    (.drained frames, d.turnTo after (frames.map (.chain ∘ .last) ++ d.scene.items))
  | .clear =>
    let (nodes, after) := d.queue.clear d.scene.memory
    (.cleared nodes, d.turnTo after d.scene.items)
  | .elsewhere t => (.nothing, { d with scene := d.scene.step t })

/-- What comes of calls in order, and the desk behind them. -/
def serveAll (budget : Nat) (d : Desk) : List Call → List Reply × Desk
  | [] => ([], d)
  | call :: rest =>
    let (reply, d) := d.serve budget call
    let (replies, d) := d.serveAll budget rest
    (reply :: replies, d)

/-- A new queue on a host whose pool has a limit or none, and nobody who holds anything. -/
def start (limit : Option Nat) : Desk := { scene := .start limit }

end Desk

/-! ## A list in its place -/

/-- What a call on a list does that comes to a reply. -/
inductive Serves : List Frame → Call → Reply → List Frame → Prop where
  | letIn (frames : List Frame) (place : Nat) (c : Chain) :
    Serves frames (.push place) (.pushed c true) (c.frames ++ frames)
  | refused (frames : List Frame) (place : Nat) (c : Chain) : Serves frames (.push place) (.pushed c false) frames
  | absent (frames : List Frame) (place : Nat) : Serves frames (.push place) .nothing frames
  | empty : Serves [] .take (.taken none) []
  | first (f : Frame) (frames : List Frame) : Serves (f :: frames) .take (.taken (some f)) frames
  | all (frames : List Frame) : Serves frames .drain (.drained frames) []
  | cleared (frames : List Frame) (nodes : Nat) : Serves frames .clear (.cleared nodes) []
  | elsewhere (frames : List Frame) (t : Turn) : Serves frames (.elsewhere t) .nothing frames

/-- What calls on a list do that come to replies, one after another. -/
inductive ServesAll : List Frame → List Call → List Reply → List Frame → Prop where
  | nil (frames : List Frame) : ServesAll frames [] [] frames
  | cons {frames frames' frames'' : List Frame} {call : Call} {reply : Reply} {calls : List Call}
    {replies : List Reply} (first : Serves frames call reply frames')
    (rest : ServesAll frames' calls replies frames'') :
    ServesAll frames (call :: calls) (reply :: replies) frames''

/-! ## One call -/

variable {q : Queue} {m : Memory} {budget : Nat} {d : Desk}

/-- A chain is let in just if the budget pays for a node. -/
theorem push_iff (c : Chain) : (q.push m budget c).1 = true ↔ m.Grants budget nodeNote nodeSize := by
  unfold push Memory.Grants
  cases ha : m.alloc budget .plain (some nodeNote) nodeSize with
  | mk answer m' => cases answer <;> simp [Except.toBool]

/-- The place of a node is given back with its last frame, and not before. -/
theorem take?_releases {node : Node} {rest : List Node} (h : q.nodes = node :: rest) :
    (node.chain.size = 1 → (q.take? m).2.1.size + 1 = q.size ∧ (q.take? m).2.2 = m.free node.charge) ∧
      (node.chain.size ≠ 1 → (q.take? m).2.1.size = q.size ∧ (q.take? m).2.2 = m) := by
  obtain ⟨chain, charge⟩ := node
  unfold take? size
  rw [h]
  cases chain with
  | last f => exact ⟨fun _ => ⟨rfl, rfl⟩, fun hsize => absurd rfl hsize⟩
  | link f behind =>
    refine ⟨fun hsize => ?_, fun _ => ⟨rfl, rfl⟩⟩
    cases behind <;> cases hsize

/-- A call does to a queue what it does to the list of its frames. -/
theorem serve_serves (d : Desk) (call : Call) :
    Serves d.queue.frames call (d.serve budget call).1 (d.serve budget call).2.queue.frames := by
  cases call with
  | push place =>
    dsimp only [Desk.serve]
    split
    · rename_i c _
      have hframes := d.queue.frames_push d.scene.memory budget c
      show Serves _ _ (.pushed c (d.queue.push d.scene.memory budget c).1)
        (d.queue.push d.scene.memory budget c).2.1.frames
      rw [hframes]
      cases (d.queue.push d.scene.memory budget c).1 with
      | true => exact .letIn _ place c
      | false => exact .refused _ place c
    · exact .absent _ place
  | take =>
    obtain ⟨hfirst, hothers⟩ := d.queue.frames_take? d.scene.memory
    show Serves _ _ (.taken (d.queue.take? d.scene.memory).1) (d.queue.take? d.scene.memory).2.1.frames
    rw [hfirst, hothers]
    cases d.queue.frames with
    | nil => exact .empty
    | cons f others => exact .first f others
  | drain =>
    obtain ⟨hall, hnone⟩ := d.queue.frames_drain d.scene.memory
    show Serves _ _ (.drained (d.queue.drain d.scene.memory).1) (d.queue.drain d.scene.memory).2.1.frames
    rw [hall, hnone]
    exact .all _
  | clear =>
    show Serves _ _ (.cleared _) (d.queue.clear d.scene.memory).2.1.frames
    rw [d.queue.frames_clear d.scene.memory]
    exact .cleared _ _
  | elsewhere t => exact .elsewhere _ t

/-- So do calls one after the other. -/
theorem serveAll_serves (d : Desk) (calls : List Call) :
    ServesAll d.queue.frames calls (d.serveAll budget calls).1 (d.serveAll budget calls).2.queue.frames := by
  induction calls generalizing d with
  | nil => exact .nil _
  | cons call rest ih => exact .cons (serve_serves d call) (ih (d.serve budget call).2)

/-! ## One frame after the other, and all together -/

/-- Taking all is taking one and then all that is left. -/
theorem drain_of_take? {f : Frame} {q' : Queue} {m' : Memory} (h : q.take? m = (some f, q', m')) :
    q.drain m = (f :: (q'.drain m').1, (q'.drain m').2) := by
  obtain ⟨nodes, admitted, dropped, extracted⟩ := q
  cases nodes with
  | nil => cases h
  | cons node rest =>
    obtain ⟨chain, charge⟩ := node
    -- the counter goes up by one and then by as many as are left
    have hcount (frames : List Frame) : extracted + (frames.length + 1) = extracted + 1 + frames.length := by omega
    cases chain with
    | last g =>
      cases h
      simp only [drain_eq, frames, List.flatMap_cons, Chain.frames, List.singleton_append, List.length_cons,
        List.foldl_cons, hcount]
      rfl
    | link g behind =>
      cases h
      simp only [drain_eq, frames, List.flatMap_cons, Chain.frames, List.cons_append, List.length_cons,
        List.foldl_cons, hcount]
      rfl

/-- As many takes as wanted. -/
def takes (q : Queue) (m : Memory) : Nat → List (Option Frame) × Queue × Memory
  | 0 => ([], q, m)
  | count + 1 =>
    let (frame?, q, m) := q.take? m
    let (frames, after) := q.takes m count
    (frame? :: frames, after)

/-- Nothing comes of an empty queue, however often it is asked. -/
theorem takes_empty (h : q.nodes = []) (count : Nat) : q.takes m count = (List.replicate count none, q, m) := by
  have htake : q.take? m = (none, q, m) := by
    unfold take?
    rw [h]
  induction count with
  | zero => rfl
  | succ count ih => simp only [takes, htake, ih, List.replicate_succ]

/-- From an empty queue a drain takes nothing. -/
theorem drain_empty (h : q.nodes = []) : q.drain m = ([], q, m) := by
  obtain ⟨nodes, admitted, dropped, extracted⟩ := q
  cases h
  rfl

/-- The frames come out one by one as they come out all together, and then none; what is left is the same. -/
theorem takes_eq_drain {count : Nat} (h : q.frames.length ≤ count) :
    q.takes m count =
      ((q.drain m).1.map some ++ List.replicate (count - q.frames.length) none, (q.drain m).2) := by
  -- on the number of takes: each takes one frame off the front, as long as there is one
  induction count generalizing q m with
  | zero =>
    rcases q.take?_cases m with ⟨-, hnone⟩ | ⟨f, q', m', -, hcons, -⟩
    · rw [takes_empty hnone, drain_empty hnone, Nat.zero_sub]
      rfl
    · rw [hcons] at h
      cases h
  | succ count ih =>
    rcases q.take?_cases m with ⟨-, hnone⟩ | ⟨f, q', m', htake, hcons, -⟩
    · have hframes : q.frames = [] := by rw [frames, hnone, List.flatMap_nil]
      rw [takes_empty hnone, drain_empty hnone, hframes, List.length_nil, Nat.sub_zero]
      rfl
    · rw [hcons, List.length_cons, Nat.succ_le_succ_iff] at h
      rw [drain_of_take? htake, hcons, List.length_cons, Nat.succ_sub_succ]
      simp only [takes, htake, ih h, List.map_cons, List.cons_append]

/-! ## What the budget pays for -/

/-- Every node is paid for with a record of a budget. -/
def Charged (budget : Nat) (q : Queue) : Prop :=
  ∀ node ∈ q.nodes, node.charge.owner = budget ∧ node.charge.kind = .plain ∧ node.charge.size = nodeSize

/-- The figures of a budget are those of one record for each node and of other blocks. -/
structure PaidBy (q : Queue) (b : Budget) (others : List Block) : Prop where
  counts : ∀ kind, (b.account.ofKind kind).allocations = (b.account.ofKind kind).frees +
    (others.countP (·.kind = kind) + if kind = .plain then q.size else 0)
  /-- The sum of their sizes is shown as far as a counter can hold it. -/
  outstanding : b.outstanding = shown (total Block.size others + nodeSize * q.size)

/-- A packet that is let in is paid for like all the others. -/
theorem Charged.push (h : Charged budget q) {out back : Multiset Block} (ht : m.Tallied out back) (c : Chain) :
    Charged budget (q.push m budget c).2.1 := by
  unfold Queue.push
  cases ha : m.alloc budget .plain (some nodeNote) nodeSize with
  | mk answer m' =>
    cases answer with
    | error e => exact h
    | ok charge =>
      obtain ⟨b, hb, rfl⟩ := Memory.alloc_granted ha
      rw [Charged, List.forall_mem_cons]
      exact ⟨⟨ht.keyed hb, rfl, Budget.Contents.size_zeroed nodeSize⟩, h⟩

/-- A packet of which a frame was taken is still paid for, or is gone. -/
theorem Charged.take? (h : Charged budget q) : Charged budget (q.take? m).2.1 := by
  unfold Queue.take?
  split
  · exact h
  · rename_i node rest hnodes
    rw [Charged, hnodes, List.forall_mem_cons] at h
    split
    · rw [Charged, List.forall_mem_cons]
      exact h
    · exact h.2

/-- The blocks of a queue are plain ones, one for each packet. -/
theorem Charged.countP (h : Charged budget q) (kind : Kind) :
    (q.nodes.map Node.charge).countP (·.kind = kind) = if kind = .plain then q.size else 0 := by
  rw [List.countP_map]
  split
  · rename_i hplain
    apply List.countP_eq_length.2
    intro node hnode
    exact decide_eq_true ((h node hnode).2.1.trans hplain.symm)
  · rename_i hplain
    apply List.countP_eq_zero.2
    intro node hnode hkind
    exact hplain ((of_decide_eq_true hkind).symm.trans (h node hnode).2.1)

/-- They are of one size. -/
theorem Charged.total (h : Charged budget q) : total Block.size (q.nodes.map Node.charge) = nodeSize * q.size := by
  have hsize : (q.nodes.map Node.charge).map Block.size = List.replicate q.size nodeSize := by
    rw [List.map_map, List.eq_replicate_iff]
    refine ⟨List.length_map _, ?_⟩
    intro size hmem
    obtain ⟨node, hnode, rfl⟩ := List.mem_map.1 hmem
    exact (h node hnode).2.2
  rw [total_eq_sum, hsize, List.sum_replicate_nat, Nat.mul_comm]

theorem Charged.filter (h : Charged budget q) :
    (q.nodes.map Node.charge).filter (·.owner = budget) = q.nodes.map Node.charge := by
  apply List.filter_eq_self.2
  intro block hblock
  obtain ⟨node, hnode, rfl⟩ := List.mem_map.1 hblock
  exact decide_eq_true (h node hnode).1

/-! ## What a call trades -/

namespace Desk

variable {k : Memory.Bookkeeping}

theorem estate_whole (d : Desk) : estate d.whole.items = estate d.queue + estate d.scene.items :=
  estate_cons (Item.queue d.queue) d.scene.items

/-- An operation on the queue takes something of what callers have and hands something out to them. -/
theorem kept_turnTo {after : Queue × Memory} {items : List Item} {a b rest : Estate}
    (h : Trades (Memory.Settled k) d.scene.memory (estate d.queue + a) after.2 (estate after.1 + b))
    (ha : a.plugs = 0) (hb : b.plugs = 0) (hbefore : estate d.scene.items = a + rest)
    (hafter : estate items = b + rest) : Scene.Kept k d.whole (d.turnTo after items).whole := by
  have hboth : Trades (Network.Settled k) d.scene.network (estate d.queue + a)
      (d.scene.network.setMemory after.2) (estate after.1 + b) := by
    apply Network.trades_setMemory h
    · rw [Estate.plugs_add, plugs_eq_zero, ha, add_zero]
    · rw [Estate.plugs_add, plugs_eq_zero, hb, add_zero]
  refine (hboth.frame rest).cast ?_ ?_
  · rw [estate_whole, hbefore, add_assoc]
  · rw [estate_whole, add_assoc]
    exact congrArg _ hafter

/-- A call hands out what it takes off the queue, and gains and loses nothing. -/
theorem kept_serve (budget : Nat) (d : Desk) (call : Call) :
    Scene.Kept Memory.Tallied d.whole (d.serve budget call).2.whole := by
  have hchains (frames : List Frame) : estate (frames.map (Item.chain ∘ .last)) = estate frames :=
    estate_map Item.estate_frame frames
  cases call with
  | push place =>
    dsimp only [serve]
    split
    · rename_i c hchain
      have hpush := Queue.operates_push (k := Memory.Tallied) budget c d.queue d.scene.memory
      have hitems : estate d.scene.items = estate c + estate (d.scene.items.eraseIdx place) :=
        estate_eq_add_eraseIdx hchain
      exact kept_turnTo hpush (plugs_eq_zero c) rfl hitems (zero_add _).symm
    · exact .refl _ _
  | take =>
    have htake := Queue.operates_take? (k := Memory.Tallied) d.queue d.scene.memory
    refine kept_turnTo htake rfl (plugs_eq_zero _) (zero_add _).symm ?_
    show estate ((d.queue.take? d.scene.memory).1.toList.map _ ++ d.scene.items) = _
    rw [estate_append, hchains, estate_toList]
  | drain =>
    have hdrain := Queue.operates_drain (k := Memory.Tallied) d.queue d.scene.memory
    refine kept_turnTo hdrain rfl (plugs_eq_zero _) (zero_add _).symm ?_
    rw [estate_append, hchains]
    rfl
  | clear =>
    have hclear := Queue.operates_clear (k := Memory.Tallied) d.queue d.scene.memory
    exact kept_turnTo hclear rfl rfl (zero_add _).symm (zero_add _).symm
  | elsewhere t =>
    have hstep := d.scene.kept_step t fun key _ => Memory.Tallied.overlooks key
    refine (hstep.frame (estate d.queue)).cast ?_ ?_
    · rw [estate_whole, add_comm]
    · rw [estate_whole, add_comm]
      rfl

/-! ## Any calls -/

/-- At any moment the host is settled with the queue and with what callers have, and every node is paid for. -/
structure Settled (budget : Nat) (d : Desk) (h : History) : Prop where
  whole : d.whole.Settled h
  charged : Charged budget d.queue

variable {h : History}

/-- So a desk stays settled behind a call. -/
theorem Settled.serve (hs : d.Settled budget h) (call : Call) :
    ∃ h', (d.serve budget call).2.Settled budget h' := by
  obtain ⟨h', -, hwhole⟩ := kept_serve budget d call h 0 (by
    rw [add_zero]
    exact hs.whole)
  rw [add_zero] at hwhole
  refine ⟨h', hwhole, ?_⟩
  cases call with
  | push place =>
    dsimp only [Desk.serve]
    split
    · exact hs.charged.push hs.whole.plane.memory.budgets _
    · exact hs.charged
  | take => exact hs.charged.take?
  | drain => exact fun node hnode => absurd hnode List.not_mem_nil
  | clear => exact fun node hnode => absurd hnode List.not_mem_nil
  | elsewhere t => exact hs.charged

/-- And behind a run of calls. -/
theorem Settled.serveAll (hs : d.Settled budget h) (calls : List Call) :
    ∃ h', (d.serveAll budget calls).2.Settled budget h' := by
  induction calls generalizing d h with
  | nil => exact ⟨h, hs⟩
  | cons call rest ih =>
    obtain ⟨h', hs'⟩ := hs.serve call
    exact ih hs'

/-- It is settled in the beginning. -/
theorem Settled.start (limit : Option Nat) : (Desk.start limit).Settled budget { limit := limit } where
  whole := by
    have hnothing : estate (Desk.start limit).whole.items = estate (Scene.start limit).items := by
      rw [estate_whole]
      exact zero_add _
    have hstart := Scene.Settled.start limit
    rw [Scene.Settled, ← hnothing] at hstart
    exact hstart
  charged := fun node hnode => absurd hnode List.not_mem_nil

theorem blocks_whole (d : Desk) : d.whole.blocks = d.queue.nodes.map Node.charge ++ d.scene.blocks := by
  simp only [Scene.blocks, whole, List.flatMap_cons, Item.blocks, List.append_assoc]
  rfl

/-- The blocks of a budget that are not in the queue: with callers, behind plugs and in other queues, and under buffers
and packets, those that wait in the queue among them. -/
def otherBlocks (d : Desk) (budget : Nat) : List Block :=
  (d.scene.blocks ++ d.whole.references.dedup.filterMap Storage.block?).filter fun block => block.owner = budget

/-- A settled queue is paid for by its budget. -/
theorem Settled.paidBy (hs : d.Settled budget h) {b : Budget} (hb : d.scene.memory.budgets[budget]? = some b) :
    PaidBy d.queue b (d.otherBlocks budget) := by
  have hmemory := hs.whole.plane.memory
  rw [Scene.estate_scene] at hmemory
  -- the budget's blocks are the records of the nodes and all others
  have hlive : b.Tallied (d.queue.nodes.map Node.charge ++ d.otherBlocks budget : List Block) := by
    have htallied := hmemory.budgets.tallied hb
    change b.Tallied (((d.whole.blocks : Multiset Block) + backing d.whole.references).filter _) at htallied
    rw [backing, Multiset.coe_dedup, Multiset.filterMap_coe, Multiset.coe_add, Multiset.filter_coe, blocks_whole,
      List.append_assoc, List.filter_append, hs.charged.filter] at htallied
    exact htallied
  refine ⟨?_, ?_⟩
  · intro kind
    rw [hlive.counts kind, Budget.countOf, Multiset.coe_countP, List.countP_append, hs.charged.countP,
      Nat.add_comm (ite _ _ _)]
  · have hsum : Budget.bytesIn (d.queue.nodes.map Node.charge ++ d.otherBlocks budget : List Block) =
        total Block.size (d.otherBlocks budget) + nodeSize * d.queue.size := by
      rw [Budget.bytesIn, Multiset.map_coe, Multiset.sum_coe, ← total_eq_sum, total_append, hs.charged.total,
        Nat.add_comm]
    rw [← hsum]
    exact hlive.outstanding_eq_shown

/-- **A queue is a list of frames, and its budget pays for its nodes.** Take a new queue on a host, and any calls:
chains of any size pushed, frames taken, the queue drained and cleared, and whatever host, callers and consumers do in
between, on any threads. The calls do to the queue what they do to a list of frames, and a chain is let in just if the
budget grants the record of a node then. Each node is paid for with one record. The figures of the budget are those of
the records of the nodes that are left and of the blocks that are elsewhere, and the figures of the host are those of
what there is, the frames that wait included. A record goes back as the last frame of its node is taken, and not
before. And in whatever state queue and memory are: taking frames until there are none hands out what a drain does, in
the same order, and leaves the queue, its counters and the memory as the drain does. -/
theorem run_serves (limit : Option Nat) (budget : Nat) (calls : List Call) :
    let run := (Desk.start limit).serveAll budget calls
    let q := run.2.queue
    let m := run.2.scene.memory
    ServesAll [] calls run.1 q.frames ∧
    (∀ c, (q.push m budget c).1 = true ↔ m.Grants budget nodeNote nodeSize) ∧
    Charged budget q ∧
    (∀ b, m.budgets[budget]? = some b → PaidBy q b (run.2.otherBlocks budget)) ∧
    (∃ past, run.2.whole.Exact past) ∧
    (∀ node rest, q.nodes = node :: rest →
      (node.chain.size = 1 → (q.take? m).2.1.size + 1 = q.size ∧ (q.take? m).2.2 = m.free node.charge) ∧
      (node.chain.size ≠ 1 → (q.take? m).2.1.size = q.size ∧ (q.take? m).2.2 = m)) ∧
    ∀ (q : Queue) (m : Memory) (count : Nat), q.frames.length < count →
      q.takes m count =
        ((q.drain m).1.map some ++ List.replicate (count - q.frames.length) none, (q.drain m).2) := by
  intro run q m
  have hstart : (Desk.start limit).Settled budget { limit := limit } := Settled.start limit
  obtain ⟨h, hs⟩ := hstart.serveAll calls
  refine ⟨serveAll_serves (Desk.start limit) calls, push_iff, hs.charged, ?_, ⟨h, hs.whole.exact⟩, ?_, ?_⟩
  · intro b hb
    exact hs.paidBy hb
  · intro node rest hnodes
    exact take?_releases hnodes
  · intro q m count hcount
    exact takes_eq_drain (Nat.le_of_lt hcount)

end Desk

end Queue

end Patchbay
