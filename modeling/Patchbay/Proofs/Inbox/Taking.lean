import Patchbay.Proofs.Inbox.Disposal

/-!
# `Proofs.Inbox.Taking` — a consumer takes the next frame

The first frame of the queue comes off before anything can go wrong with it. One segment is handed over as it stands;
any other frame is copied into a block of the budget, which may just have got the record of the node back. What comes
off and cannot be copied is lost, but all that it held comes back.

## Contents
* `Queue.behind`, `Memory.behind` — queue and memory when the first frame is gone;
* `Budget.alloc_refused` — who refuses a block;
* `Frame.Taken` — what becomes of a frame that came off;
* `Network.requeue` — a network where one queue and the memory are different;
* `Network.Listed.takeNext`, `Network.takeNext_cases` — nothing waits, or something does;
* `Scene.FreshCopy` — a fresh block with the bytes of a frame;
* `Scene.run_takeNext` — whatever happened before.
-/

namespace Patchbay

open Budget (Block Failure)

/-! ## The first frame is gone -/

/-- The memory when the first frame of a node is gone: the record of the node goes back with its last frame. -/
def Memory.behind (m : Memory) (node : Node) : Memory :=
  match node.chain.rest? with
  | some _ => m
  | none => m.free node.charge

namespace Memory

/-- A block that comes back is no matter of the pool, of references, or of the ids that come next. -/
theorem behind_frame (m : Memory) (node : Node) :
    (m.behind node).pool = m.pool ∧ (m.behind node).references = m.references := by
  unfold behind
  split
  · exact ⟨rfl, rfl⟩
  · exact m.free_frame node.charge

theorem signature_behind {m : Memory} {node : Node} {budget : Nat} {b : Budget}
    (h : (m.behind node).budgets[budget]? = some b) :
    ∃ b₀, m.budgets[budget]? = some b₀ ∧ b.key = b₀.key ∧ b.nextId = b₀.nextId ∧ b.ceiling = b₀.ceiling := by
  unfold behind at h
  split at h
  · exact ⟨b, h, rfl, rfl, rfl⟩
  · unfold free at h
    split at h
    · exact ⟨b, h, rfl, rfl, rfl⟩
    · rename_i owner howner
      rw [setBudget, Array.getElem?_setIfInBounds] at h
      split at h
      · rename_i hkey
        split at h
        · cases h
          rw [hkey] at howner
          exact ⟨owner, howner, rfl, rfl, rfl⟩
        · cases h
      · exact ⟨b, h, rfl, rfl, rfl⟩

end Memory

namespace Queue

/-- The queue when the first frame of its first node is gone: the frames behind it stay where they are. -/
def behind (q : Queue) (node : Node) (rest : List Node) : Queue :=
  { q with
    nodes := node.chain.rest?.toList.map (fun chain => { node with chain := chain }) ++ rest
    extracted := q.extracted + 1 }

theorem take?_eq {q : Queue} {node : Node} {rest : List Node} (h : q.nodes = node :: rest) (m : Memory) :
    q.take? m = (some node.chain.head, q.behind node rest, m.behind node) := by
  unfold take? behind Memory.behind
  rw [h]
  dsimp only
  cases node.chain.rest? <;> rfl

theorem frames_behind {q : Queue} {node : Node} {rest : List Node} (h : q.nodes = node :: rest) :
    q.frames = node.chain.head :: (q.behind node rest).frames := by
  obtain ⟨chain, charge⟩ := node
  unfold frames behind
  rw [h]
  cases chain <;> rfl

/-- No node is without a frame. -/
theorem frames_eq_nil_iff {q : Queue} : q.frames = [] ↔ q.nodes = [] := by
  cases hnodes : q.nodes with
  | nil =>
    rw [frames, hnodes]
    simp
  | cons node rest =>
    rw [frames_behind hnodes]
    simp

end Queue

/-! ## A copy of a frame -/

namespace Budget

variable {b : Budget} {heap : Heap} {lane : Lane} {kind : Kind} {comment : Option String} {size n : Nat} {e : Failure}

/-- A block is refused by the budget, or the budget lets the charge through and the system allocator has none. -/
theorem alloc_refused (h : (b.alloc heap .plain lane comment size).1 = .error e) :
    ((b.reserve .plain lane size).1 = .error e ∧ ∃ held, e = .outOfMemory size held b.ceiling) ∨
      ((b.reserve .plain lane size).1 = .ok () ∧ heap.has size = false ∧ e = .exhausted size) := by
  unfold alloc at h
  dsimp only [chargedSize] at h
  cases hr : b.reserve .plain lane size with
  | mk answer b' =>
    rw [hr] at h
    cases answer with
    | error e' =>
      cases h
      have hheld := reserve_error (congrArg Prod.fst hr)
      exact .inl ⟨rfl, hheld⟩
    | ok done =>
      dsimp only at h
      split at h
      · cases h
      · rename_i hnone
        cases h
        exact .inr ⟨rfl, eq_false_of_ne_true hnone, rfl⟩

end Budget

namespace Frame

variable {f : Frame} {m m' : Memory} {budget : Nat}

theorem compact_ok {block : Block} (h : m.alloc budget .plain (some compactNote) f.length = (.ok block, m')) :
    f.compact m budget =
      (.ok (.whole (m'.shareBlock (block.write 0 f.bytes)).1), (m'.shareBlock (block.write 0 f.bytes)).2) := by
  unfold compact
  rw [h]

theorem compact_error {e : Failure} (h : m.alloc budget .plain (some compactNote) f.length = (.error e, m')) :
    f.compact m budget = (.error e, m') := by
  unfold compact
  rw [h]

/-- What becomes of a frame that came off its queue, for a consumer of a budget. -/
inductive Taken (f : Frame) (budget : Nat) (m : Memory) : Except NetFailure (Option View) → Memory → Prop where
  | whole {segment : Segment} (single : f.segments = [segment]) :
    Taken f budget m (.ok (some segment.view)) m.returnHeader
  | copied {block : Block} {m' : Memory} (many : f.segments.length ≠ 1)
    (granted : m.alloc budget .plain (some compactNote) f.length = (.ok block, m')) :
    Taken f budget m (.ok (some (.whole ⟨m'.references.size, .block (block.write 0 f.bytes)⟩)))
      ((m'.shareBlock (block.write 0 f.bytes)).2.releaseFrame f)
  | lost {e : Failure} (many : f.segments.length ≠ 1)
    (refused : m.alloc budget .plain (some compactNote) f.length = (.error e, m)) :
    Taken f budget m (.error (.memory e)) (m.releaseFrame f)

variable {answer : Except NetFailure (Option View)}

theorem Taken.ne (h : f.Taken budget m answer m') : answer ≠ .error .notFound ∧ answer ≠ .ok none := by
  cases h <;> exact ⟨nofun, nofun⟩

theorem Taken.of_single (h : f.Taken budget m answer m') {segment : Segment} (hsingle : f.segments = [segment]) :
    answer = .ok (some segment.view) ∧ m' = m.returnHeader := by
  have hlength : f.segments.length = 1 := congrArg List.length hsingle
  cases h with
  | whole single =>
    obtain rfl := List.singleton_inj.1 (single.symm.trans hsingle)
    exact ⟨rfl, rfl⟩
  | copied many => exact absurd hlength many
  | lost many => exact absurd hlength many

theorem Taken.of_granted (h : f.Taken budget m answer m') (hmany : f.segments.length ≠ 1)
    (hgrants : m.Grants budget compactNote f.length) : ∃ block m₁,
      m.alloc budget .plain (some compactNote) f.length = (.ok block, m₁) ∧
      answer = .ok (some (.whole ⟨m₁.references.size, .block (block.write 0 f.bytes)⟩)) := by
  cases h with
  | whole single => exact absurd (congrArg List.length single) hmany
  | copied many granted => exact ⟨_, _, granted, rfl⟩
  | lost many refused =>
    obtain ⟨block, m₁, granted, -⟩ := hgrants.alloc
    cases refused.symm.trans granted

theorem Taken.of_refused (h : f.Taken budget m answer m') (hmany : f.segments.length ≠ 1)
    (hrefused : ¬ m.Grants budget compactNote f.length) : ∃ e,
      m.alloc budget .plain (some compactNote) f.length = (.error e, m) ∧
      answer = .error (.memory e) ∧ m' = m.releaseFrame f := by
  cases h with
  | whole single => exact absurd (congrArg List.length single) hmany
  | copied many granted =>
    refine absurd ?_ hrefused
    unfold Memory.Grants
    rw [granted]
    rfl
  | lost many refused => exact ⟨_, refused, rfl, rfl⟩

/-- Its headers come back in any case. -/
theorem Taken.headersLive (h : f.Taken budget m answer m') :
    m'.pool.headersLive = m.pool.headersLive - f.segments.length := by
  cases h with
  | whole single =>
    rw [single]
    rfl
  | @copied block m₁ many granted =>
    have hpool := (Memory.alloc_frame m budget .plain (some compactNote) f.length).1
    rw [granted] at hpool
    rw [Memory.releaseFrame, Memory.headersLive_releaseSegments]
    exact congrArg (·.headersLive - f.segments.length) hpool
  | lost many refused => exact Memory.headersLive_releaseSegments m f.segments

end Frame

namespace Network

variable {n : Network} {key id : Nat} {plug : Plug} {q q' : Queue} {m m' : Memory}

/-! ## One queue and the memory -/

/-- The network with the queue of a plug and the memory replaced. -/
def requeue (n : Network) (plug : Plug) (q : Queue) (m : Memory) : Network :=
  { n with plane := { n.plane.setLine plug { n.plane.line plug with queue := q } with memory := m } }

theorem requeues_requeue (h : plug.key < n.plane.lines.size) (q : Queue) (m : Memory) :
    n.Requeues (n.requeue plug q m) plug q m :=
  requeues_onQueue (f := fun _ _ => ((), q, m)) h rfl

theorem onQueue_eq {α : Type} {f : Queue → Memory → α × Queue × Memory} {answer : α}
    (h : f (n.plane.line plug).queue n.memory = (answer, q, m)) : n.onQueue plug f = (answer, n.requeue plug q m) := by
  have hsame : n.onQueue plug f = ((f (n.plane.line plug).queue n.memory).1,
      n.requeue plug (f (n.plane.line plug).queue n.memory).2.1 (f (n.plane.line plug).queue n.memory).2.2) := rfl
  rw [hsame, h]

@[simp] theorem setMemory_requeue : (n.requeue plug q m).setMemory m' = n.requeue plug q m' := rfl

@[simp] theorem memory_requeue : (n.requeue plug q m).memory = m := rfl

@[simp] theorem budgetOf_requeue : (n.requeue plug q m).budgetOf key = n.budgetOf key := rfl

/-- What is put back as it was is no change. -/
theorem requeue_self (h : plug.key < n.plane.lines.size) :
    n.requeue plug (n.plane.line plug).queue n.memory = n := by
  have hlines : n.plane.lines.setIfInBounds plug.key (n.plane.line plug) = n.plane.lines := by
    rw [Backplane.line_eq h, Array.setIfInBounds_def, dif_pos h, Array.set_getElem_self]
  show { n with plane := { n.plane with lines := n.plane.lines.setIfInBounds plug.key (n.plane.line plug) } } = n
  rw [hlines]

/-! ## What comes of a take -/

theorem takeNext_unknown (h : (n.registry key).byId? id = none) : n.takeNext key id = (.error .notFound, n) := by
  unfold takeNext
  rw [h]

section Found

variable (hfound : (n.registry key).byId? id = some plug)
include hfound

theorem takeNext_empty (hlined : plug.key < n.plane.lines.size) (h : (n.plane.line plug).queue.nodes = []) :
    n.takeNext key id = (.ok none, n) := by
  have htake : (n.plane.line plug).queue.take? n.memory = (none, (n.plane.line plug).queue, n.memory) := by
    unfold Queue.take?
    rw [h]
  unfold takeNext
  rw [hfound]
  dsimp only
  rw [onQueue_eq htake, requeue_self hlined]

variable {node : Node} {rest : List Node} (h : (n.plane.line plug).queue.nodes = node :: rest)
include h

/-- One segment is handed over as it stands. -/
theorem takeNext_single {segment : Segment} (hsingle : node.chain.head.segments = [segment]) :
    n.takeNext key id = (.ok (some segment.view),
      n.requeue plug ((n.plane.line plug).queue.behind node rest) (n.memory.behind node).returnHeader) := by
  unfold takeNext
  rw [hfound]
  dsimp only
  rw [onQueue_eq (Queue.take?_eq h n.memory)]
  simp only [hsingle, setMemory_requeue, memory_requeue]

/-- Anything else is copied, and a copy that is refused leaves the frame to nobody. -/
theorem takeNext_compact (hmany : node.chain.head.segments.length ≠ 1) {answer : Except Failure View}
    (hcompact : node.chain.head.compact (n.memory.behind node) (n.budgetOf key) = (answer, m)) :
    n.takeNext key id = ((answer.map some).mapError .memory,
      n.requeue plug ((n.plane.line plug).queue.behind node rest) (m.releaseFrame node.chain.head)) := by
  have hmade : (n.requeue plug ((n.plane.line plug).queue.behind node rest) (n.memory.behind node)).onMemory
      (fun m => node.chain.head.compact m (n.budgetOf key)) =
        (answer, n.requeue plug ((n.plane.line plug).queue.behind node rest) m) := onMemory_eq hcompact
  unfold takeNext
  rw [hfound]
  dsimp only
  rw [onQueue_eq (Queue.take?_eq h n.memory)]
  dsimp only
  split
  · rename_i segment hsingle
    rw [hsingle] at hmany
    exact absurd rfl hmany
  · simp only [budgetOf_requeue, hmade]
    cases answer <;> rfl

/-- All that can come of a take where something waits. -/
theorem takeNext_cases : ∃ m', (n.takeNext key id).2 = n.requeue plug ((n.plane.line plug).queue.behind node rest) m' ∧
    node.chain.head.Taken (n.budgetOf key) (n.memory.behind node) (n.takeNext key id).1 m' := by
  by_cases hsingle : node.chain.head.segments.length = 1
  · obtain ⟨segment, hsegment⟩ := List.length_eq_one_iff.1 hsingle
    rw [takeNext_single hfound h hsegment]
    exact ⟨_, rfl, .whole hsegment⟩
  · cases ha : (n.memory.behind node).alloc (n.budgetOf key) .plain (some Frame.compactNote) node.chain.head.length with
    | mk answer m₁ =>
      cases answer with
      | ok block =>
        rw [takeNext_compact hfound h hsingle (Frame.compact_ok ha)]
        exact ⟨_, rfl, .copied hsingle ha⟩
      | error e =>
        obtain rfl := Memory.alloc_error ha
        rw [takeNext_compact hfound h hsingle (Frame.compact_error ha)]
        exact ⟨_, rfl, .lost hsingle ha⟩

end Found

/-- An id that is not plugged and an empty queue are told apart, and in neither case does anything change. -/
theorem Listed.takeNext (hl : n.Listed) (key id : Nat) :
    ((n.takeNext key id).1 = .error .notFound ↔ (n.registry key).byId? id = none) ∧
    ((n.takeNext key id).1 = .ok none ↔
      ∃ plug, (n.registry key).byId? id = some plug ∧ n.plane.waiting plug = []) ∧
    ((n.takeNext key id).1 = .error .notFound ∨ (n.takeNext key id).1 = .ok none → (n.takeNext key id).2 = n) := by
  cases hfound : (n.registry key).byId? id with
  | none =>
    rw [takeNext_unknown hfound]
    simp
  | some plug =>
    cases hnodes : (n.plane.line plug).queue.nodes with
    | nil =>
      have hwaiting : n.plane.waiting plug = [] := Queue.frames_eq_nil_iff.2 hnodes
      rw [takeNext_empty hfound (hl (byId?_mem hfound)).lined hnodes]
      simp [hwaiting]
    | cons node rest =>
      obtain ⟨m', -, htaken⟩ := takeNext_cases hfound hnodes
      obtain ⟨hunknown, hempty⟩ := htaken.ne
      have hwaiting : n.plane.waiting plug ≠ [] := by
        intro hnone
        rw [Queue.frames_eq_nil_iff.1 hnone] at hnodes
        cases hnodes
      simp [hunknown, hempty, hwaiting]

section Out

variable {k : Memory.Bookkeeping} [Memory.Tally k] {past : History} {e : Estate} {node : Node} {rest : List Node}

/-- The frame that comes off is out for a moment, whatever becomes of it then. -/
theorem Settled.first_out (hs : n.Settled k past e) (hfound : (n.registry key).byId? id = some plug)
    (h : (n.plane.line plug).queue.nodes = node :: rest) :
    ∃ past', (n.requeue plug ((n.plane.line plug).queue.behind node rest) (n.memory.behind node)).Settled k past'
      (estate (Chain.last node.chain.head) + e) := by
  have htake := n.trades_onQueue (byId?_mem hfound) (Queue.operates_take? (k := k)) rfl plugs_eq_zero
  rw [onQueue_eq (Queue.take?_eq h n.memory)] at htake
  obtain ⟨past', -, hs'⟩ := htake past e (by
    rw [zero_add]
    exact hs)
  rw [estate_last]
  exact ⟨past', hs'⟩

/-- Every header of the frame that comes off comes back. -/
theorem Settled.headersLive_takeNext (hs : n.Settled k past e) (hfound : (n.registry key).byId? id = some plug)
    (h : (n.plane.line plug).queue.nodes = node :: rest) :
    (n.takeNext key id).2.memory.pool.headersLive + node.chain.head.segments.length = n.memory.pool.headersLive := by
  obtain ⟨m, hnext, htaken⟩ := takeNext_cases hfound h
  obtain ⟨past', hout⟩ := hs.first_out hfound h
  have hlive : node.chain.head.segments.length ≤ (n.memory.behind node).pool.headersLive := by
    have hall := hout.length_le_headersLive
    rwa [Chain.frames, List.flatMap_singleton] at hall
  rw [hnext, memory_requeue, htaken.headersLive, Nat.sub_add_cancel hlive, (n.memory.behind_frame node).1]

end Out

end Network

/-! ## At any moment -/

/-- A buffer over a fresh plain block of a budget: as long as a frame and with its bytes. Nothing that there was is over
the same storage, and no block of the budget has the same id. -/
structure Scene.FreshCopy (s : Scene) (f : Frame) (budget : Nat) (v : View) (block : Block) : Prop where
  whole : v = .whole ⟨v.storage.key, .block block⟩
  owner : block.owner = budget
  plain : block.kind = .plain
  size : block.size = f.length
  bytes : v.bytes = f.bytes
  apart : ∀ g ∈ s.references, g.key ≠ v.storage.key
  fresh : ∀ other ∈ s.blocks ++ s.references.dedup.filterMap Storage.block?, other.owner = budget → other.id ≠ block.id

namespace Scene

variable {s : Scene} {h : History}

/-- What a consumer is given a copy in is new. -/
theorem Settled.freshCopy (hs : s.Settled h) {f : Frame} {node : Node} {budget : Nat} {block : Block} {m : Memory}
    (hgranted : (s.memory.behind node).alloc budget .plain (some Frame.compactNote) f.length = (.ok block, m)) :
    s.FreshCopy f budget (.whole ⟨m.references.size, .block (block.write 0 f.bytes)⟩) (block.write 0 f.bytes) := by
  have hmemory := hs.plane.memory
  rw [estate_scene] at hmemory
  obtain ⟨b, hb, rfl⟩ := Memory.alloc_granted hgranted
  obtain ⟨b₀, hb₀, hkey, hnext, -⟩ := Memory.signature_behind hb
  refine ⟨rfl, ?_, rfl, ?_, ?_, ?_, ?_⟩
  · exact hkey.trans (hmemory.budgets.keyed hb₀)
  · rw [Budget.Block.size, Budget.Block.write, Budget.Contents.size_write, Budget.Contents.size_zeroed]
  · rw [View.bytes_whole]
    exact f.toList_written
  · -- keys are given out in turn, so those of all storages lie below the new one
    intro g hg
    have hlt : g.key < s.memory.references.size := hmemory.key_lt (hmemory.known hg)
    have hsize : m.references.size = s.memory.references.size := by
      have hframe := (Memory.alloc_frame (s.memory.behind node) budget .plain (some Frame.compactNote) f.length).2
      rw [hgranted] at hframe
      rw [hframe, (s.memory.behind_frame node).2]
    show g.key ≠ m.references.size
    rw [hsize]
    exact Nat.ne_of_lt hlt
  · -- and so do the ids of the blocks of that budget
    intro other hother howner
    show other.id ≠ b.nextId
    rw [hnext]
    apply Nat.ne_of_lt
    apply (hmemory.budgets.tallied hb₀).fresh
    rw [Multiset.mem_filter]
    refine ⟨?_, howner⟩
    rw [Multiset.mem_add, backing]
    rcases List.mem_append.1 hother with hblock | hbehind
    · exact .inl hblock
    · right
      show other ∈ (s.references : Multiset Storage).dedup.filterMap Storage.block?
      rw [Multiset.coe_dedup, Multiset.filterMap_coe]
      exact hbehind

/-- The views that callers have after a take are those that the host is settled with. -/
theorem Settled.takeNext (hs : s.Settled h) (key id : Nat) :
    ∃ h', Settled ⟨(s.network.takeNext key id).2,
      (s.network.takeNext key id).1.toOption.join.toList.map .view ++ s.items⟩ h' := by
  obtain ⟨h', -, hs'⟩ := s.network.trades_takeNext (k := Memory.Tallied) key id h (estate s.items) (by
    rw [zero_add]
    exact hs)
  refine ⟨h', ?_⟩
  rw [Settled, estate_append, estate_map Item.estate_view, estate_toList, estate_join, estate_toOption]
  exact hs'

/-- **The next frame, and all that can go wrong with it.** On a host after any run of acts, a consumer asks for the next
frame under an id. It is told that the id is unknown just if nothing is plugged under it, and that there is nothing just
if its queue is empty; in neither case does anything change. Otherwise the first frame of the first node comes off. The
frames behind it stay in front, and if there are none, the record of the node goes back before anything else happens. No
other queue is touched, and every header of the frame comes back. One segment is handed over as it stands, and no budget
is charged. Anything else is handed over as a fresh block of the budget. If there is no block for it, the frame is gone:
every reference of it came back, and nothing else is different. Then either the budget refused the charge and the answer
is that the ceiling is reached, or the charge was let through and the system allocator had nothing. Whatever the answer
is, the figures are those of what there is, with the view that was handed out. -/
theorem run_takeNext (limit : Option Nat) (turns : List Turn) (key id : Nat) :
    let s := (start limit).run turns
    let n := s.network
    let budget := n.budgetOf key
    let answer := (n.takeNext key id).1
    let n' := (n.takeNext key id).2
    (answer = .error .notFound ↔ (n.registry key).byId? id = none) ∧
    (answer = .ok none ↔ ∃ plug, (n.registry key).byId? id = some plug ∧ n.plane.waiting plug = []) ∧
    (answer = .error .notFound ∨ answer = .ok none → n' = n) ∧
    (∃ past, Exact ⟨n', answer.toOption.join.toList.map .view ++ s.items⟩ past) ∧
    ∀ plug node rest, (n.registry key).byId? id = some plug → (n.plane.line plug).queue.nodes = node :: rest →
      let f := node.chain.head
      let m := n.memory.behind node
      n.Requeues n' plug ((n.plane.line plug).queue.behind node rest) n'.memory ∧
      n'.memory.pool.headersLive + f.segments.length = n.memory.pool.headersLive ∧
      (∀ segment, f.segments = [segment] →
        answer = .ok (some ⟨segment.storage, segment.offset, segment.length⟩) ∧ n'.memory = m.returnHeader) ∧
      (f.segments.length ≠ 1 → m.Grants budget Frame.compactNote f.length →
        ∃ v block, answer = .ok (some v) ∧ s.FreshCopy f budget v block) ∧
      (f.segments.length ≠ 1 → ¬ m.Grants budget Frame.compactNote f.length → ∃ e,
        answer = .error (.memory e) ∧ n'.memory = m.releaseFrame f ∧
        (∀ g, n'.memory.referencesTo g = n.memory.referencesTo g -
          f.segments.countP fun segment => segment.storage.key = g.key) ∧
        ∀ b, m.budgets[budget]? = some b →
          ((b.reserve .plain m.lane f.length).1 = .error e ∧ ∃ held, e = .outOfMemory f.length held b.ceiling) ∨
          ((b.reserve .plain m.lane f.length).1 = .ok () ∧ m.heap.has f.length = false ∧ e = .exhausted f.length)) := by
  intro s n budget answer n'
  obtain ⟨h, hs⟩ := settled_run limit turns
  obtain ⟨past, hs'⟩ := hs.takeNext key id
  obtain ⟨hunknown, hempty, hsame⟩ := Network.Listed.takeNext (Network.Settled.listed hs) key id
  refine ⟨hunknown, hempty, hsame, ⟨past, hs'.exact⟩, ?_⟩
  intro plug node rest hfound hnodes f m
  have hlined := (Network.Settled.plugged hs (Network.byId?_mem hfound)).lined
  -- what becomes of the frame that comes off is a matter of the memory behind its node
  obtain ⟨m', hnext, htaken⟩ := Network.takeNext_cases hfound hnodes
  have hrequeues : n.Requeues n' plug ((n.plane.line plug).queue.behind node rest) n'.memory := by
    show n.Requeues (n.takeNext key id).2 plug _ (n.takeNext key id).2.memory
    rw [hnext]
    exact Network.requeues_requeue hlined _ _
  have hmemory : n'.memory = m' := by
    show (n.takeNext key id).2.memory = m'
    rw [hnext]
    rfl
  refine ⟨hrequeues, Network.Settled.headersLive_takeNext hs hfound hnodes, ?_, ?_, ?_⟩
  · intro segment hsingle
    rw [hmemory]
    exact htaken.of_single hsingle
  · intro hmany hgrants
    obtain ⟨block, m₁, hgranted, hanswer⟩ := htaken.of_granted hmany hgrants
    exact ⟨_, _, hanswer, hs.freshCopy hgranted⟩
  · intro hmany hrefused
    obtain ⟨e, halloc, hanswer, hleft⟩ := htaken.of_refused hmany hrefused
    refine ⟨e, hanswer, hmemory.trans hleft, ?_, ?_⟩
    · intro g
      rw [hmemory, hleft, Memory.releaseFrame, Memory.referencesTo_releaseSegments]
      refine congrArg (· - _) ?_
      show m.references.getD g.key 0 = n.memory.references.getD g.key 0
      rw [(n.memory.behind_frame node).2]
    · -- the charge was refused, or it was let through and the system allocator had nothing
      intro b hb
      apply Budget.alloc_refused
      unfold Memory.alloc at halloc
      rw [hb] at halloc
      exact congrArg Prod.fst halloc

end Scene

end Patchbay
