import Patchbay.Proofs.Budget.Admission
import Patchbay.Proofs.Inbox.Stack
import Patchbay.Proofs.Inbox.Taking

/-!
# `Proofs.Inbox.Agreement` — taking all and taking one by one come to the same

A consumer may take all that waits at once, segment by segment over the very storage, or frame by frame in one piece.
As long as no copy is refused, it gets the same bytes in the same order. The queue is empty either way and its counters
are the same, and with all buffers given back so is everything that is lent.

## Contents
* `Memory.Lasting` — budgets do not go away;
* `Budget.LiveAlike`, `Memory.LiveAlike` — the same is lent; `Memory.Settled.liveAlike`;
* `Network.takeAll_eq`, `Network.allocationsOf_takeAll` — all that waits, and nothing is copied;
* `Inbox.run_takeNext_eq` — one frame after the other;
* `Inbox.run_agreement` — whatever happened before.
-/

namespace Patchbay

open Budget (Block Kind Failure)

/-! ## The same is lent -/

/-- Two budgets have the same outstanding, in all and of each kind, and as many blocks. -/
structure Budget.LiveAlike (b b' : Budget) : Prop where
  outstanding : b'.outstanding = b.outstanding
  bytes : ∀ kind, b'.account.outstandingOf kind = b.account.outstandingOf kind
  blocks : ∀ kind, (b'.account.ofKind kind).allocations - (b'.account.ofKind kind).frees =
    (b.account.ofKind kind).allocations - (b.account.ofKind kind).frees

/-- Blocks tell all that is outstanding. -/
theorem Budget.Tallied.liveAlike {b b' : Budget} {live : Multiset Block} (h : b.Tallied live) (h' : b'.Tallied live) :
    b.LiveAlike b' where
  outstanding := by rw [h.outstanding_eq_shown, h'.outstanding_eq_shown]
  bytes := by
    intro kind
    rw [Account.outstandingOf, Account.outstandingOf, h.bytes, h'.bytes]
  blocks := by
    intro kind
    rw [h.counts, h'.counts, Nat.add_sub_cancel_left, Nat.add_sub_cancel_left]

namespace Memory

/-- Two memories lent the same: headers, clusters, and what is outstanding in each of so many budgets. -/
structure LiveAlike (count : Nat) (m m' : Memory) : Prop where
  headers : m'.pool.headersLive = m.pool.headersLive
  clusters : m'.pool.clustersLive = m.pool.clustersLive
  budgets : ∀ key < count, ∃ b b', m.budgets[key]? = some b ∧ m'.budgets[key]? = some b' ∧ b.LiveAlike b'

/-- The figures of the budgets are those of their blocks, and so many budgets there are at least. -/
def Lasting (count : Nat) : Bookkeeping :=
  fun m out back => m.Tallied out back ∧ count ≤ m.budgets.size

theorem size_setBudget (m : Memory) (key : Nat) (b : Budget) : (m.setBudget key b).budgets.size = m.budgets.size :=
  Array.size_setIfInBounds

theorem size_free (m : Memory) (block : Block) : (m.free block).budgets.size = m.budgets.size := by
  unfold free
  split
  · rfl
  · exact size_setBudget m _ _

instance (count : Nat) : Tally (Lasting count) where
  of_budgets h hb := by
    refine ⟨h.1.of_budgets hb, ?_⟩
    rw [hb]
    exact h.2
  alloc h ha := by
    refine ⟨h.1.alloc ha, ?_⟩
    obtain ⟨b, b', -, -, rfl⟩ := alloc_ok ha
    rw [size_setBudget]
    exact h.2
  resize h hr := by
    refine ⟨h.1.resize hr, ?_⟩
    obtain ⟨b, b', -, -, rfl⟩ := resize_ok hr
    rw [size_setBudget]
    exact h.2
  write h start data := ⟨h.1.write start data, h.2⟩
  free h := by
    refine ⟨h.1.free, ?_⟩
    rw [size_free]
    exact h.2
  addBudget h ceiling tracking := by
    refine ⟨h.1.addBudget ceiling tracking, ?_⟩
    rw [Memory.addBudget, Array.size_push]
    exact Nat.le_succ_of_le h.2

/-- Memories that are settled with the same estate lent the same, however they got there. -/
theorem Settled.liveAlike {count : Nat} {m m' : Memory} {past past' : History} {e : Estate}
    (h : m.Settled (Lasting count) past e) (h' : m'.Settled (Lasting count) past' e) : m.LiveAlike count m' where
  headers := h'.headersLive.trans h.headersLive.symm
  clusters := h'.clustersLive.trans h.clustersLive.symm
  budgets := by
    intro key hkey
    have hb : m.budgets[key]? = some _ := Array.getElem?_eq_getElem (Nat.lt_of_lt_of_le hkey h.budgets.2)
    have hb' : m'.budgets[key]? = some _ := Array.getElem?_eq_getElem (Nat.lt_of_lt_of_le hkey h'.budgets.2)
    exact ⟨_, _, hb, hb', (h.budgets.1.tallied hb).liveAlike (h'.budgets.1.tallied hb')⟩

theorem trades_releaseViews {k : Bookkeeping} [Tally k] (m : Memory) (views : List View) :
    Trades (Settled k) m (estate views) (m.releaseViews views) 0 :=
  Trades.foldl (fun m v => trades_release m v.storage) views m

/-! ## Nothing is copied -/

/-- How many blocks of a kind a budget has granted. -/
def allocationsOf (m : Memory) (key : Nat) (kind : Kind) : Option Nat :=
  m.budgets[key]?.map fun b => (b.account.ofKind kind).allocations

theorem allocationsOf_free (m : Memory) (block : Block) (key : Nat) (kind : Kind) :
    (m.free block).allocationsOf key kind = m.allocationsOf key kind := by
  unfold free
  split
  · rfl
  · rename_i b hb
    have hkeeps : ((b.free m.lane block).account.ofKind kind).allocations = (b.account.ofKind kind).allocations := by
      have hcredit := (b.account.moves_credit block.kind m.lane block.size).allocations kind
      have hcount :=
        ((b.account.credit block.kind m.lane block.size).moves_countFree block.kind m.lane).allocations kind
      rw [ite_self, Nat.add_zero] at hcredit hcount
      exact hcount.trans hcredit
    rw [allocationsOf, allocationsOf, setBudget, Array.getElem?_setIfInBounds]
    split
    · rename_i hkey
      rw [if_pos (Array.getElem?_eq_some_iff.1 hb).1, ← hkey, hb]
      exact congrArg some hkeeps
    · rfl

/-- The second memory has made and lent on nothing that the first one had not. -/
structure CopiesNothing (m m' : Memory) : Prop where
  references : m'.references = m.references
  clusters : m'.pool.clustersLive = m.pool.clustersLive
  allocations : ∀ key kind, m'.allocationsOf key kind = m.allocationsOf key kind

theorem CopiesNothing.trans {m m' m'' : Memory} (h : m.CopiesNothing m') (h' : m'.CopiesNothing m'') :
    m.CopiesNothing m'' where
  references := h'.references.trans h.references
  clusters := h'.clusters.trans h.clusters
  allocations key kind := (h'.allocations key kind).trans (h.allocations key kind)

theorem copiesNothing_free (m : Memory) (block : Block) : m.CopiesNothing (m.free block) where
  references := (m.free_frame block).2
  clusters := congrArg Pool.clustersLive (m.free_frame block).1
  allocations := m.allocationsOf_free block

theorem copiesNothing_foldl {α : Type} {f : Memory → α → Memory} (hf : ∀ (m : Memory) a, m.CopiesNothing (f m a))
    (l : List α) (m : Memory) : m.CopiesNothing (l.foldl f m) := by
  induction l generalizing m with
  | nil => exact ⟨rfl, rfl, fun _ _ => rfl⟩
  | cons a rest ih => exact (hf m a).trans (ih (f m a))

end Memory

namespace Queue

/-- The queue when all that waited was taken out. -/
def emptied (q : Queue) : Queue :=
  { q with nodes := [], extracted := q.extracted + q.frames.length }

/-- So a drain leaves it. -/
theorem queue_drain (q : Queue) (m : Memory) : (q.drain m).2.1 = q.emptied := by
  rw [drain_eq]
  rfl

theorem emptied_empty {q : Queue} (h : q.nodes = []) : q.emptied = q := by
  obtain ⟨nodes, admitted, dropped, extracted⟩ := q
  cases h
  rfl

theorem emptied_behind {q : Queue} {node : Node} {rest : List Node} (h : q.nodes = node :: rest) :
    (q.behind node rest).emptied = q.emptied := by
  have hcount : q.extracted + 1 + (q.behind node rest).frames.length = q.extracted + q.frames.length := by
    rw [frames_behind h, List.length_cons]
    omega
  rw [emptied, emptied, ← hcount]
  rfl

end Queue

namespace Network

variable {n : Network} {key id : Nat} {plug : Plug}

/-- All that waits comes as one view for each segment, and the queue is empty. -/
theorem takeAll_eq (hfound : (n.registry key).byId? id = some plug) :
    n.takeAll key id = ((n.plane.waiting plug).flatMap fun f => f.segments.map Segment.view,
      n.requeue plug (n.plane.line plug).queue.emptied
        (unwrapAll ((n.plane.line plug).queue.drain n.memory).2.2 (n.plane.waiting plug)).2) := by
  have hviews := views_takeAll hfound
  rw [← List.flatMap_def] at hviews
  have hdrain : (n.onQueue plug Queue.drain).2 =
      n.requeue plug (n.plane.line plug).queue.emptied ((n.plane.line plug).queue.drain n.memory).2.2 := by
    rw [← Queue.queue_drain _ n.memory]
    rfl
  refine Prod.ext hviews ?_
  unfold takeAll
  rw [hfound]
  dsimp only
  rw [onQueue_drain, hdrain]
  rfl

theorem copiesNothing_unwrapAll (m : Memory) (frames : List Frame) : m.CopiesNothing (unwrapAll m frames).2 := by
  induction frames generalizing m with
  | nil => exact ⟨rfl, rfl, fun _ _ => rfl⟩
  | cons f rest ih =>
    have hreturn (m : Memory) (_ : Segment) : m.CopiesNothing m.returnHeader := ⟨rfl, rfl, fun _ _ => rfl⟩
    have hfirst : m.CopiesNothing (f.unwrap m).2 := Memory.copiesNothing_foldl hreturn f.segments m
    exact hfirst.trans (ih (f.unwrap m).2)

theorem copiesNothing_takeAll (hfound : (n.registry key).byId? id = some plug) :
    n.memory.CopiesNothing (n.takeAll key id).2.memory := by
  rw [takeAll_eq hfound, memory_requeue]
  have hfree (m : Memory) (node : Node) : m.CopiesNothing (m.free node.charge) := m.copiesNothing_free node.charge
  have hdrain : n.memory.CopiesNothing ((n.plane.line plug).queue.drain n.memory).2.2 := by
    rw [Queue.drain_eq]
    exact Memory.copiesNothing_foldl hfree _ n.memory
  exact hdrain.trans (copiesNothing_unwrapAll _ _)

theorem line_requeue (h : plug.key < n.plane.lines.size) (q : Queue) (m : Memory) :
    (n.requeue plug q m).plane.line plug = { n.plane.line plug with queue := q } :=
  Backplane.line_setLine h _

theorem queue_requeue (h : plug.key < n.plane.lines.size) (q : Queue) (m : Memory) :
    ((n.requeue plug q m).plane.line plug).queue = q :=
  congrArg Line.queue (line_requeue h q m)

theorem size_requeue (q : Queue) (m : Memory) : (n.requeue plug q m).plane.lines.size = n.plane.lines.size :=
  Array.size_setIfInBounds

theorem requeue_requeue (h : plug.key < n.plane.lines.size) (q q' : Queue) (m m' : Memory) :
    (n.requeue plug q m).requeue plug q' m' = n.requeue plug q' m' := by
  rw [requeue, line_requeue h]
  simp only [requeue, Backplane.setLine, Array.setIfInBounds_setIfInBounds]

end Network

namespace Inbox

open Network (takeNext_empty takeNext_cases requeue_requeue queue_requeue size_requeue)

variable {n : Network} {key : Nat} {plug : Plug}

/-! ## One frame after the other -/

/-- What the consumer holds of an answer. -/
def Answer.views : Answer (Except NetFailure (Option View)) (List View) → List View
  | .nothing => []
  | .one answer => answer.toOption.join.toList
  | .all views => views

/-- One buffer after the other, and then so often nothing. -/
def oneByOne (buffers : List View) (nothing : Nat) : List (Answer (Except NetFailure (Option View)) (List View)) :=
  buffers.map (fun v => .one (.ok (some v))) ++ List.replicate nothing (.one (.ok none))

theorem views_oneByOne (buffers : List View) (nothing : Nat) :
    (oneByOne buffers nothing).flatMap Answer.views = buffers := by
  have hnothing : (List.replicate nothing (.one (.ok none))).flatMap Answer.views = [] := by
    apply List.flatMap_eq_nil_iff.2
    intro answer hanswer
    rw [List.eq_of_mem_replicate hanswer]
    rfl
  rw [oneByOne, List.flatMap_append, hnothing, List.append_nil, List.flatMap_map]
  exact List.flatMap_singleton' buffers

theorem trades_run_takeNext {k : Memory.Bookkeeping} [Memory.Tally k] (key : Nat) (plug : Plug) (n : Network)
    (count : Nat) :
    Trades (Network.Settled k) n 0 (run key plug n (List.replicate count .takeNext)).2
      (estate ((run key plug n (List.replicate count .takeNext)).1.flatMap Answer.views)) := by
  induction count generalizing n with
  | zero => exact .refl n 0
  | succ count ih =>
    have hfirst := n.trades_takeNext (k := k) key plug.id
    have hothers := (ih (n.takeNext key plug.id).2).frame (estate (n.takeNext key plug.id).1)
    refine (hfirst.trans (hothers.cast (zero_add _).symm rfl)).cast rfl ?_
    rw [List.replicate_succ, run, List.flatMap_cons, estate_append, add_comm]
    refine congrArg (_ + ·) ?_
    show estate (n.takeNext key plug.id).1.toOption.join.toList = _
    rw [estate_toList, estate_join, estate_toOption]

/-- Nothing comes of an empty queue, however often it is asked. -/
theorem run_takeNext_empty (hnamed : (n.registry key).byId? plug.id = some plug)
    (hlined : plug.key < n.plane.lines.size) (h : (n.plane.line plug).queue.nodes = []) (count : Nat) :
    run key plug n (List.replicate count .takeNext) = (List.replicate count (.one (.ok none)), n) := by
  induction count with
  | zero => rfl
  | succ count ih =>
    rw [List.replicate_succ, run, step, takeNext_empty hnamed hlined h]
    simp only [ih, List.replicate_succ]

/-- A copy that is not refused has the bytes of the frame, and so does the view of a single segment. -/
theorem taken_granted {f : Frame} {budget : Nat} {m m' : Memory} {answer : Except NetFailure (Option View)}
    (h : f.Taken budget m answer m')
    (hgrants : f.segments.length ≠ 1 → m.Grants budget Frame.compactNote f.length) :
    ∃ v : View, answer = .ok (some v) ∧ v.bytes = f.bytes := by
  cases h with
  | @whole segment single =>
    refine ⟨segment.view, rfl, ?_⟩
    rw [Frame.bytes, single, List.flatMap_singleton]
    rfl
  | copied many granted =>
    obtain ⟨b, -, rfl⟩ := Memory.alloc_granted granted
    refine ⟨_, rfl, ?_⟩
    rw [View.bytes_whole]
    exact f.toList_written
  | lost many refused =>
    obtain ⟨block, m₁, granted, -⟩ := (hgrants many).alloc
    cases refused.symm.trans granted

/-- The budget pays for the copy out of what it has when the frame is off the queue. -/
theorem Obliges.behind (hobliges : Obliges key plug n .takeNext) {node : Node} {rest : List Node}
    (h : (n.plane.line plug).queue.nodes = node :: rest) (hmany : node.chain.head.segments.length ≠ 1) :
    (n.memory.behind node).Grants (n.budgetOf key) Frame.compactNote node.chain.head.length := by
  have hfirst : node.chain.head ∈ (n.plane.waiting plug).head? := by
    rw [Backplane.waiting, Queue.frames_behind h]
    rfl
  have hgrants := hobliges node.chain.head hfirst hmany
  rwa [Network.onQueue_eq (Queue.take?_eq h n.memory)] at hgrants

/-- One buffer comes for each frame, and then nothing. -/
theorem run_takeNext_eq {count : Nat} (hnamed : (n.registry key).byId? plug.id = some plug)
    (hlined : plug.key < n.plane.lines.size) (henough : (n.plane.line plug).queue.frames.length ≤ count)
    (hobliges : ObligesAll key plug n (List.replicate count .takeNext)) :
    ∃ (buffers : List View) (m : Memory),
      run key plug n (List.replicate count .takeNext) =
        (oneByOne buffers (count - (n.plane.line plug).queue.frames.length),
          n.requeue plug (n.plane.line plug).queue.emptied m) ∧
      buffers.map View.bytes = (n.plane.line plug).queue.frames.map Frame.bytes := by
  -- on the number of takes: as long as there is a node, its first frame comes off
  induction count generalizing n with
  | zero =>
    have hframes := List.length_eq_zero_iff.1 (Nat.le_zero.1 henough)
    refine ⟨[], n.memory, ?_, ?_⟩
    · rw [Queue.emptied_empty (Queue.frames_eq_nil_iff.1 hframes), Network.requeue_self hlined, Nat.zero_sub]
      rfl
    · rw [hframes]
      rfl
  | succ count ih =>
    cases hnodes : (n.plane.line plug).queue.nodes with
    | nil =>
      have hframes := Queue.frames_eq_nil_iff.2 hnodes
      refine ⟨[], n.memory, ?_, ?_⟩
      · rw [run_takeNext_empty hnamed hlined hnodes, Queue.emptied_empty hnodes, Network.requeue_self hlined, hframes]
        rfl
      · rw [hframes]
        rfl
    | cons node rest =>
      obtain ⟨m', hnext, htaken⟩ := takeNext_cases hnamed hnodes
      have hfirst := Queue.frames_behind hnodes
      rw [List.replicate_succ] at hobliges
      obtain ⟨hgrants, hothers⟩ := hobliges
      obtain ⟨v, hanswer, hbytes⟩ := taken_granted htaken (hgrants.behind hnodes)
      rw [step, hnext] at hothers
      have hnamed' : ((n.requeue plug ((n.plane.line plug).queue.behind node rest) m').registry key).byId? plug.id =
          some plug := hnamed
      have hlined' : plug.key < (n.requeue plug ((n.plane.line plug).queue.behind node rest) m').plane.lines.size := by
        rw [size_requeue]
        exact hlined
      have hqueue := queue_requeue hlined ((n.plane.line plug).queue.behind node rest) m'
      obtain ⟨buffers, m, hrun, hall⟩ := ih hnamed' hlined' (by
        rw [hfirst, List.length_cons] at henough
        rw [hqueue]
        exact Nat.le_of_succ_le_succ henough) hothers
      rw [hqueue, requeue_requeue hlined, Queue.emptied_behind hnodes] at hrun
      rw [hqueue] at hall
      refine ⟨v :: buffers, m, ?_, ?_⟩
      · rw [List.replicate_succ, run, step, hanswer, hnext]
        dsimp only
        rw [hrun, hfirst, List.length_cons, Nat.succ_sub_succ]
        rfl
      · rw [hfirst, List.map_cons, List.map_cons, hbytes, hall]

/-! ## Either way -/

/-- What was handed out and is given back leaves the host settled with what there was before. -/
theorem settled_releaseViews {k : Memory.Bookkeeping} [Memory.Tally k] {n' : Network} {past : History} {e : Estate}
    {views : List View} (hs : n.Settled k past e) (h : Trades (Network.Settled k) n 0 n' (estate views)) :
    ∃ past', (n'.setMemory (n'.memory.releaseViews views)).Settled k past' e := by
  have hback : Trades (Network.Settled k) n' (estate views) (n'.setMemory (n'.memory.releaseViews views)) 0 :=
    Network.trades_setMemory (n'.memory.trades_releaseViews views) (plugs_eq_zero views) rfl
  obtain ⟨past', -, hs'⟩ := (h.trans hback) past e (by
    rw [zero_add]
    exact hs)
  rw [zero_add] at hs'
  exact ⟨past', hs'⟩

/-- Settled with the same, two ways of emptying the queue leave the same lent. -/
theorem liveAlike_requeue {count : Nat} {q : Queue} {m m' : Memory} {past past' : History} {e : Estate}
    (hs : (n.requeue plug q m).Settled (Memory.Lasting count) past e)
    (hs' : (n.requeue plug q m').Settled (Memory.Lasting count) past' e) : m.LiveAlike count m' :=
  Memory.Settled.liveAlike hs.plane.memory hs'.plane.memory

/-- The bytes of the views of all segments, and those of the frames one after the other. -/
theorem flatMap_bytes_segments (frames : List Frame) :
    ((frames.flatMap Frame.segments).map Segment.view).flatMap View.bytes = (frames.map Frame.bytes).flatten := by
  rw [List.flatMap_map, List.flatMap_assoc, List.flatMap_def]
  rfl

theorem takes_agree {past : History} {e : Estate} (hs : n.Settled Memory.Tallied past e)
    (hplug : plug ∈ (n.registry key).plugs)
    (hobliges : ObligesAll key plug n (List.replicate ((n.plane.waiting plug).length + 1) .takeNext)) :
    ∃ (buffers : List View) (m m' : Memory),
      n.takeAll key plug.id = (((n.plane.waiting plug).flatMap Frame.segments).map Segment.view,
        n.requeue plug (n.plane.line plug).queue.emptied m) ∧
      run key plug n (List.replicate ((n.plane.waiting plug).length + 1) .takeNext) =
        (oneByOne buffers 1, n.requeue plug (n.plane.line plug).queue.emptied m') ∧
      buffers.map View.bytes = (n.plane.waiting plug).map Frame.bytes ∧
      (m.releaseViews (((n.plane.waiting plug).flatMap Frame.segments).map Segment.view)).LiveAlike
        n.memory.budgets.size (m'.releaseViews buffers) := by
  have hnamed := (hs.registry_sound key).byId? hplug
  obtain ⟨buffers, m', hrun, hbytes⟩ := run_takeNext_eq hnamed (hs.plugged hplug).lined (Nat.le_succ _) hobliges
  have hall := Network.takeAll_eq hnamed
  rw [← List.map_flatMap] at hall
  change run key plug n (List.replicate ((n.plane.waiting plug).length + 1) .takeNext) =
    (oneByOne buffers ((n.plane.waiting plug).length + 1 - (n.plane.waiting plug).length), _) at hrun
  rw [Nat.add_sub_cancel_left] at hrun
  refine ⟨buffers, _, m', hall, hrun, hbytes, ?_⟩
  -- with what was handed out given back, both are settled with what there was before
  have hlasting : n.Settled (Memory.Lasting n.memory.budgets.size) past e :=
    hs.exchange rfl rfl fun _ _ htallied => ⟨htallied, Nat.le_refl _⟩
  have htakeAll := n.trades_takeAll (k := Memory.Lasting n.memory.budgets.size) key plug.id
  have htakeEach := trades_run_takeNext (k := Memory.Lasting n.memory.budgets.size) key plug n
    ((n.plane.waiting plug).length + 1)
  rw [hall] at htakeAll
  rw [hrun, views_oneByOne] at htakeEach
  obtain ⟨past₁, hsall⟩ := settled_releaseViews hlasting htakeAll
  obtain ⟨past₂, hseach⟩ := settled_releaseViews hlasting htakeEach
  exact liveAlike_requeue hsall hseach

/-- **Taking all and taking one by one come to the same.** Take a host after any run of acts and a plug with whatever
waits there: chains of any size, frames of any number of segments, segments of any length. Somebody takes all of it, or
asks for one frame after the other until there is nothing, and no copy that this needs is refused. One by one there
comes a buffer for each frame, with its bytes, and then nothing. All at once there comes a view for each segment, in the
order of the queue and over the very storage of the segment, and nothing is copied for it: no storage is made or lent
on, and no budget grants a block. The bytes are the same, one after the other. Either way the queue is empty then with
the same counters, and nothing else of the host is different but its memory. With all buffers given back the same is
lent: headers, clusters, and the bytes and blocks of each kind in every budget. -/
theorem run_agreement (limit : Option Nat) (turns : List Turn) {key : Nat} {plug : Plug}
    (hplug : plug ∈ (((Scene.start limit).run turns).network.registry key).plugs)
    (hobliges : ObligesAll key plug ((Scene.start limit).run turns).network
      (List.replicate ((((Scene.start limit).run turns).network.plane.waiting plug).length + 1) .takeNext)) :
    let n := ((Scene.start limit).run turns).network
    let frames := n.plane.waiting plug
    let all := n.takeAll key plug.id
    let each := run key plug n (List.replicate (frames.length + 1) .takeNext)
    ∃ buffers,
      each.1 = oneByOne buffers 1 ∧ buffers.map View.bytes = frames.map Frame.bytes ∧
      all.1 = (frames.flatMap Frame.segments).map Segment.view ∧ n.memory.CopiesNothing all.2.memory ∧
      all.1.flatMap View.bytes = buffers.flatMap View.bytes ∧
      n.Requeues all.2 plug (n.plane.line plug).queue.emptied all.2.memory ∧
      n.Requeues each.2 plug (n.plane.line plug).queue.emptied each.2.memory ∧
      (all.2.memory.releaseViews all.1).LiveAlike n.memory.budgets.size (each.2.memory.releaseViews buffers) := by
  intro n frames all each
  obtain ⟨h, hs⟩ := Scene.settled_run limit turns
  have hlined := (Network.Settled.plugged hs hplug).lined
  have hnamed := (Network.Settled.registry_sound hs key).byId? hplug
  have hcopies : n.memory.CopiesNothing all.2.memory := Network.copiesNothing_takeAll hnamed
  obtain ⟨buffers, m, m', hall, heach, hbytes, hlive⟩ := takes_agree hs hplug hobliges
  change all = _ at hall
  change each = _ at heach
  rw [hall] at hcopies
  rw [hall, heach]
  refine ⟨buffers, rfl, hbytes, rfl, hcopies, ?_, ?_, ?_, hlive⟩
  · show (List.map Segment.view _).flatMap View.bytes = _
    rw [flatMap_bytes_segments, ← hbytes, List.flatMap_def]
  · exact Network.requeues_requeue hlined _ m
  · exact Network.requeues_requeue hlined _ m'

/-- A frame without segments, one in one segment and one in three, and between them a chain of two. -/
theorem run_agreement_mixed :
    let own : Mac := ⟨[2, 0, 0, 0, 0, 1], rfl⟩
    let chained : List FrameSpec := [{ bytes := [2, 0, 0, 0, 0, 1, 5] }, { bytes := [6] }]
    let turns := Scene.setUp own ++
      [{ act := .host (.inject 1 [2, 0, 0, 0, 0, 1, 7, 8, 9] 4) },
        { act := .packet (.make chained) }, { act := .host (.input 1 0) },
        { act := .host (.inject 1 [2, 0, 0, 0, 0, 1] 6) },
        { act := .packet (.assemble [] none) }, { act := .queue (.hold 0 7) }, { act := .queue (.push 0 0 0) }]
    let n := ((Scene.start none).run turns).network
    let plug := Plug.ofSetUp own
    plug ∈ (n.registry 0).plugs ∧
      ObligesAll 0 plug n (List.replicate ((n.plane.waiting plug).length + 1) .takeNext) ∧
      (n.plane.waiting plug).map (·.segments.length) = [0, 1, 1, 1, 3] ∧
      ∃ buffers, (run 0 plug n (List.replicate 6 .takeNext)).1 = oneByOne buffers 1 ∧
        buffers.map View.bytes =
          [[], [2, 0, 0, 0, 0, 1], [2, 0, 0, 0, 0, 1, 5], [6], [2, 0, 0, 0, 0, 1, 7, 8, 9]] ∧
        (n.takeAll 0 plug.id).1.flatMap View.bytes = buffers.flatMap View.bytes := by
  intro own chained turns n plug
  have hplug : plug ∈ (n.registry 0).plugs := by decide +kernel
  have hobliges : ObligesAll 0 plug n (List.replicate ((n.plane.waiting plug).length + 1) .takeNext) := by
    decide +kernel
  have hframes : (n.plane.waiting plug).map Frame.bytes =
      [[], [2, 0, 0, 0, 0, 1], [2, 0, 0, 0, 0, 1, 5], [6], [2, 0, 0, 0, 0, 1, 7, 8, 9]] := by decide +kernel
  have hlength : (n.plane.waiting plug).length = 5 := by decide +kernel
  obtain ⟨buffers, hanswers, hbytes, -, -, hshown, -⟩ := run_agreement none turns hplug hobliges
  change (run 0 plug n (List.replicate ((n.plane.waiting plug).length + 1) .takeNext)).1 = _ at hanswers
  rw [hlength] at hanswers
  exact ⟨hplug, hobliges, by decide +kernel, buffers, hanswers, hbytes.trans hframes, hshown⟩

end Inbox

end Patchbay
