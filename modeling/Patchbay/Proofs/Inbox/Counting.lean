import Patchbay.Proofs.Inbox.Agreement
import Patchbay.Proofs.Inbox.Figures

/-!
# `Proofs.Inbox.Counting` — what a queue counts as taken out, and what somebody got

A queue counts a frame when it comes off. Whether anybody gets something of it is decided later: a frame that has to be
copied may find no memory, and of a frame without segments nothing comes when all that waits is taken. So the counter is
ahead of what was handed out by just these frames.

## Contents
* `Queue.extracted_take?`, `Queue.extracted_drain`, `Backplane.figures_take` — frames that come off are counted;
* `Scene.handed`, `Scene.wasted` — how many frames come off a line for somebody, and how many for nobody;
* `Network.isAmong_takeAll`, `Network.isSome_takeNext` — each frame that comes off is one or the other;
* `Scene.tally`, `Scene.Settled.figures_run`, `Scene.Settled.extracted_run` — act by act;
* `Scene.run_extracted` — whatever happens.
-/

namespace Patchbay

/-! ## Frames that come off are counted -/

/-- How many frames were taken out of the queue of a line. -/
def Line.extracted (line : Line) : Nat := line.queue.extracted

theorem Line.steady_extracted : Line.Steady Line.extracted where
  queue _ _ h := h
  holders _ _ := rfl

theorem Queue.extracted_take? (q : Queue) (m : Memory) :
    (q.take? m).2.1.extracted = q.extracted + (q.frames.take 1).length := by
  cases hnodes : q.nodes with
  | nil =>
    rw [frames_eq_nil_iff.2 hnodes]
    unfold take?
    rw [hnodes]
    rfl
  | cons node rest =>
    rw [take?_eq hnodes, frames_behind hnodes]
    rfl

theorem Queue.extracted_drain (q : Queue) (m : Memory) :
    (q.drain m).2.1.extracted = q.extracted + q.frames.length :=
  congrArg Queue.extracted (q.queue_drain m)

/-- What an operation takes out of a queue is counted on its line. -/
theorem Backplane.figures_take {p : Backplane} {plug : Plug} {α : Type} {f : Queue → Memory → α × Queue × Memory}
    {count : Nat} (h : plug.key < p.lines.size)
    (hf : (f (p.line plug).queue p.memory).2.1.extracted = (p.line plug).queue.extracted + count) (key : Nat) :
    (p.onQueue plug f).2.figures Line.extracted key =
      p.figures Line.extracted key + if plug.key = key then count else 0 := by
  refine (p.figures_setLine plug _ key).trans ?_
  by_cases hkey : plug.key = key
  · subst hkey
    rw [if_pos ⟨rfl, h⟩, if_pos rfl]
    exact hf
  · rw [if_neg fun heq => hkey heq.1, if_neg hkey, Nat.add_zero]

/-- A frame is among views if one of its segments is. -/
def Frame.isAmong (f : Frame) (views : List View) : Bool :=
  f.segments.any fun g => views.contains g.view

namespace Network

/-- The frames that wait on a line for an id. -/
def waitingFor (n : Network) (line key id : Nat) : List Frame :=
  match (n.registry key).byId? id with
  | none => []
  | some plug => if plug.key = line then n.plane.waiting plug else []

/-- The memory when the next frame for an id is off its queue. -/
def memoryBehind (n : Network) (key id : Nat) : Memory :=
  match (n.registry key).byId? id with
  | none => n.memory
  | some plug => (n.onQueue plug Queue.take?).2.memory

variable {n : Network} {line key id : Nat} {plug : Plug}

theorem waitingFor_eq (hfound : (n.registry key).byId? id = some plug) :
    n.waitingFor line key id = if plug.key = line then n.plane.waiting plug else [] := by
  rw [waitingFor, hfound]

theorem memoryBehind_eq (hfound : (n.registry key).byId? id = some plug) {node : Node} {rest : List Node}
    (h : (n.plane.line plug).queue.nodes = node :: rest) : n.memoryBehind key id = n.memory.behind node := by
  rw [memoryBehind, hfound]
  dsimp only
  rw [onQueue_eq (Queue.take?_eq h n.memory), memory_requeue]

theorem mem_waitingFor {f : Frame} (hf : f ∈ n.waitingFor line key id) : ∃ plug,
    (n.registry key).byId? id = some plug ∧ n.waitingFor line key id = n.plane.waiting plug := by
  cases hfound : (n.registry key).byId? id with
  | none =>
    rw [waitingFor, hfound] at hf
    cases hf
  | some plug =>
    rw [waitingFor_eq hfound] at hf ⊢
    split at hf
    · rename_i hline
      exact ⟨plug, rfl, if_pos hline⟩
    · cases hf

theorem extracted_takeAll (hl : n.Listed) (line key id : Nat) : (n.takeAll key id).2.plane.figures Line.extracted line =
    n.plane.figures Line.extracted line + (n.waitingFor line key id).length := by
  cases hfound : (n.registry key).byId? id with
  | none =>
    unfold takeAll waitingFor
    rw [hfound]
    rfl
  | some plug =>
    have hdrain : (n.takeAll key id).2.plane.figures Line.extracted =
        (n.plane.onQueue plug Queue.drain).2.figures Line.extracted := by
      unfold takeAll
      rw [hfound]
      rfl
    rw [hdrain, Backplane.figures_take (hl (byId?_mem hfound)).lined (Queue.extracted_drain _ _), waitingFor_eq hfound,
      apply_ite List.length]
    rfl

theorem extracted_takeNext (hl : n.Listed) (line key id : Nat) :
    (n.takeNext key id).2.plane.figures Line.extracted line =
      n.plane.figures Line.extracted line + ((n.waitingFor line key id).take 1).length := by
  cases hfound : (n.registry key).byId? id with
  | none =>
    rw [takeNext_unknown hfound, waitingFor, hfound]
    rfl
  | some plug =>
    have htake : (n.onQueue plug Queue.take?).2.plane.figures Line.extracted line =
        n.plane.figures Line.extracted line + ((n.waitingFor line key id).take 1).length := by
      refine (Backplane.figures_take (hl (byId?_mem hfound)).lined (Queue.extracted_take? _ _) line).trans ?_
      rw [waitingFor_eq hfound]
      split <;> rfl
    unfold takeNext
    rw [hfound]
    dsimp only
    -- whatever becomes of the frame, it has come off
    split <;> rename_i heq <;> rw [heq] at htake
    · exact htake
    split
    · exact htake
    · split <;> exact htake

/-! ## What comes off is handed out or wasted -/

/-- All that waits comes as its segments, so that a frame is left out just if it has none. -/
theorem isAmong_takeAll {f : Frame} (hf : f ∈ n.waitingFor line key id) :
    f.isAmong (n.takeAll key id).1 = !f.segments.isEmpty := by
  obtain ⟨plug, hfound, hwaiting⟩ := mem_waitingFor hf
  rw [hwaiting] at hf
  rw [takeAll_eq hfound, Frame.isAmong, Bool.eq_iff_iff, List.any_eq_true]
  constructor
  · rintro ⟨g, hg, -⟩
    cases hsegments : f.segments with
    | nil =>
      rw [hsegments] at hg
      cases hg
    | cons first others => rfl
  · intro hsome
    obtain ⟨g, hg⟩ := List.exists_mem_of_ne_nil f.segments (by simpa using hsome)
    refine ⟨g, hg, List.contains_iff_mem.2 (List.mem_flatMap.2 ⟨f, hf, ?_⟩)⟩
    exact List.mem_map_of_mem hg

/-- The next frame comes as a buffer unless it has to be copied and there is no memory for the copy. -/
theorem isSome_takeNext {f : Frame} (hf : f ∈ (n.waitingFor line key id).take 1) :
    (n.takeNext key id).1.toOption.join.isSome = !decide (f.segments.length ≠ 1 ∧
      ¬ (n.memoryBehind key id).Grants (n.budgetOf key) Frame.compactNote f.length) := by
  obtain ⟨plug, hfound, hwaiting⟩ := mem_waitingFor (List.mem_of_mem_take hf)
  rw [hwaiting] at hf
  cases hnodes : (n.plane.line plug).queue.nodes with
  | nil =>
    rw [Backplane.waiting, Queue.frames_eq_nil_iff.2 hnodes] at hf
    cases hf
  | cons node rest =>
    rw [Backplane.waiting, Queue.frames_behind hnodes] at hf
    obtain rfl := List.mem_singleton.1 hf
    obtain ⟨m', -, htaken⟩ := takeNext_cases hfound hnodes
    rw [memoryBehind_eq hfound hnodes]
    by_cases hsingle : node.chain.head.segments.length = 1
    · obtain ⟨segment, hsegment⟩ := List.length_eq_one_iff.1 hsingle
      rw [(htaken.of_single hsegment).1, decide_eq_false fun h => h.1 hsingle]
      rfl
    by_cases hgrants : (n.memory.behind node).Grants (n.budgetOf key) Frame.compactNote node.chain.head.length
    · obtain ⟨block, m₁, -, hanswer⟩ := htaken.of_granted hsingle hgrants
      rw [hanswer, decide_eq_false fun h => h.2 hgrants]
      rfl
    · obtain ⟨e, -, hanswer, -⟩ := htaken.of_refused hsingle hgrants
      rw [hanswer, decide_eq_true ⟨hsingle, hgrants⟩]
      rfl

end Network

theorem countP_add_countP {α : Type} {p q : α → Bool} {l : List α} (h : ∀ a ∈ l, p a = !q a) :
    l.countP p + l.countP q = l.length := by
  rw [List.length_eq_countP_add_countP q, Nat.add_comm]
  refine congrArg (l.countP q + ·) (List.countP_congr fun a ha => ?_)
  simp [h a ha]

namespace Scene

/-- The frames that wait on a line, if it is that of the plug at a place. -/
def waitingAt (s : Scene) (line place : Nat) : List Frame :=
  match s.items[place]? with
  | some (.plug plug) => if plug.key = line then s.network.plane.waiting plug else []
  | _ => []

/-- How many frames an act takes off a line for somebody. Of all that wait a consumer gets those of which a view is
among the views that come, and it gets the next one if the answer is a buffer. Taken by hand, frames come as they
are. -/
def handed (s : Scene) (line : Nat) : Act → Nat
  | .splice (.takeAll key id) =>
    (s.network.waitingFor line key id).countP fun f => f.isAmong (s.network.takeAll key id).1
  | .splice (.takeNext key id) =>
    ((s.network.waitingFor line key id).take 1).countP fun _ => (s.network.takeNext key id).1.toOption.join.isSome
  | .queue (.take place) => ((s.waitingAt line place).take 1).length
  | .queue (.drain place) => (s.waitingAt line place).length
  | _ => 0

/-- How many frames an act takes off a line for nobody: of all that wait those without segments, and the next one if it
has to be copied and the budget has no block for the copy. -/
def wasted (s : Scene) (line : Nat) : Act → Nat
  | .splice (.takeAll key id) => (s.network.waitingFor line key id).countP fun f => f.segments.isEmpty
  | .splice (.takeNext key id) =>
    ((s.network.waitingFor line key id).take 1).countP fun f => f.segments.length ≠ 1 ∧
      ¬ (s.network.memoryBehind key id).Grants (s.network.budgetOf key) Frame.compactNote f.length
  | _ => 0

variable {s : Scene} {h : History}

section ByHand

variable {α : Type} {f : Queue → Memory → α × Queue × Memory} {line place : Nat}

/-- A plug that a caller holds has a line. -/
theorem Settled.lined (hs : s.Settled h) {plug : Plug} (hitem : s.items[place]? = some (.plug plug)) :
    plug.key < s.network.plane.lines.size := by
  apply hs.plane.lined
  rw [estate_eq_add_eraseIdx hitem, add_assoc]
  exact Backplane.mem_plugs plug _

theorem waitingAt_of_none (h : s.items[place]?.bind (onQueueItem s.network f) = none) :
    s.waitingAt line place = [] := by
  unfold waitingAt
  split
  · rename_i plug hitem
    rw [hitem] at h
    cases h
  · rfl

/-- What is taken by hand off the queue of a plug is counted on its line. -/
theorem Settled.extracted_onQueueItem (hs : s.Settled h) {x : α} {item' : Item} {n' : Network}
    (count : List Frame → Nat) (hnothing : count [] = 0)
    (hf : ∀ q m, (f q m).2.1.extracted = q.extracted + count q.frames)
    (hwork : s.items[place]?.bind (onQueueItem s.network f) = some (x, item', n')) :
    n'.plane.figures Line.extracted line =
      s.network.plane.figures Line.extracted line + count (s.waitingAt line place) := by
  obtain ⟨item, hitem, hwork⟩ := Option.bind_eq_some_iff.1 hwork
  cases item with
  | queue q =>
    cases hwork
    rw [waitingAt, hitem]
    dsimp only
    rw [hnothing]
    rfl
  | plug p =>
    cases hwork
    refine (Backplane.figures_take (hs.lined hitem) (hf _ _) line).trans ?_
    rw [waitingAt, hitem]
    dsimp only
    rw [apply_ite count, hnothing]
    rfl
  | _ => cases hwork

end ByHand

/-! ## Act by act -/

/-- Each act counts on a line what comes off it. -/
theorem Settled.extracted_perform (hs : s.Settled h) (line : Nat) (act : Act) :
    (s.perform act).network.plane.figures Line.extracted line =
      s.network.plane.figures Line.extracted line + s.handed line act + s.wasted line act := by
  have hlisted : s.network.Listed := Network.Settled.listed hs
  have hsame {act : Act} (h : act.counts = false) : (s.perform act).network.plane.figures Line.extracted line =
      s.network.plane.figures Line.extracted line + 0 + 0 :=
    congrFun (s.figures_perform Line.steady_extracted h) line
  cases act with
  | splice act =>
    cases act with
    | takeAll key id =>
      refine (Network.extracted_takeAll hlisted line key id).trans ?_
      -- a frame comes off for somebody or for nobody
      rw [Nat.add_assoc, handed, wasted, countP_add_countP fun f hf => Network.isAmong_takeAll hf]
    | takeNext key id =>
      refine (Network.extracted_takeNext hlisted line key id).trans ?_
      rw [Nat.add_assoc, handed, wasted, countP_add_countP fun f hf => Network.isSome_takeNext hf]
    | submit key id places =>
      exact congrFun (s.network.figures_submit Line.steady_extracted (fun _ _ => rfl) key id _) line
    | _ => exact hsame rfl
  | queue act =>
    cases act with
    | take place =>
      show (s.stepQueue (.take place)).network.plane.figures Line.extracted line = _
      unfold stepQueue
      dsimp only
      split
      · rename_i hwork
        exact hs.extracted_onQueueItem (fun frames => (frames.take 1).length) rfl Queue.extracted_take? hwork
      · rename_i hnone
        rw [handed, waitingAt_of_none hnone]
        rfl
    | drain place =>
      show (s.stepQueue (.drain place)).network.plane.figures Line.extracted line = _
      unfold stepQueue
      dsimp only
      split
      · rename_i hwork
        exact hs.extracted_onQueueItem List.length rfl Queue.extracted_drain hwork
      · rename_i hnone
        rw [handed, waitingAt_of_none hnone]
        rfl
    | _ => exact hsame rfl
  | _ => exact hsame rfl

/-- The scene as it is for an act: with the thread and the system allocator of its turn. -/
def prepared (s : Scene) (t : Turn) : Scene :=
  { s with network := s.network.setMemory { s.network.memory with heap := t.heap, lane := t.lane } }

/-- What acts come to, one after the other. -/
def tally (figure : Scene → Act → Nat) (s : Scene) : List Turn → Nat
  | [] => 0
  | t :: rest => figure (s.prepared t) t.act + tally figure (s.step t) rest

/-- They come to nothing if none of them does. -/
theorem tally_eq_zero_iff (figure : Scene → Act → Nat) (turns : List Turn) : s.tally figure turns = 0 ↔
    ∀ i t, turns[i]? = some t → figure ((s.run (turns.take i)).prepared t) t.act = 0 := by
  induction turns generalizing s with
  | nil => simp [tally]
  | cons t rest ih =>
    rw [tally, Nat.add_eq_zero_iff, ih]
    constructor
    · rintro ⟨hfirst, hrest⟩ i t' ht
      cases i with
      | zero =>
        cases ht
        exact hfirst
      | succ i => exact hrest i t' ht
    · intro hall
      exact ⟨hall 0 t rfl, fun i t' ht => hall (i + 1) t' ht⟩

theorem Settled.prepared (hs : s.Settled h) (t : Turn) : (s.prepared t).Settled h :=
  Network.Settled.exchange hs rfl rfl fun _ _ ht => ht.of_budgets rfl

/-- A figure that grows with each act by one of two things grows over a run by what these come to. -/
theorem Settled.figures_run {figure : Line → Nat} {line : Nat} {gain waste : Scene → Act → Nat}
    (hperform : ∀ {s : Scene} {h : History}, s.Settled h → ∀ act,
      (s.perform act).network.plane.figures figure line =
        s.network.plane.figures figure line + gain s act + waste s act)
    (hs : s.Settled h) (turns : List Turn) :
    (s.run turns).network.plane.figures figure line =
      s.network.plane.figures figure line + s.tally gain turns + s.tally waste turns := by
  induction turns generalizing s h with
  | nil => rfl
  | cons t rest ih =>
    obtain ⟨h', -, hs'⟩ := hs.step t
    have hfirst : (s.step t).network.plane.figures figure line = _ := hperform (hs.prepared t) t.act
    have hrest : (s.run (t :: rest)).network.plane.figures figure line = _ := ih hs'
    have hprepared : (s.prepared t).network.plane.figures figure line = s.network.plane.figures figure line := rfl
    rw [hrest, hfirst, hprepared, tally, tally]
    omega

theorem Settled.extracted_run (hs : s.Settled h) (line : Nat) (turns : List Turn) :
    (s.run turns).network.plane.figures Line.extracted line = s.network.plane.figures Line.extracted line +
      s.tally (handed · line) turns + s.tally (wasted · line) turns :=
  figures_run (fun hs => hs.extracted_perform line) hs turns

/-- **What is counted as taken out was handed out or wasted.** Take a host after any run of acts, a plug, and any
further acts of anybody: frames that arrive, consumers that take all that waits or the next frame, refused or not, plugs
and splices that come and go. Over these acts the counter of the plug's queue grows by the frames that came off for
somebody and those that came off for nobody. So it tells what was handed out just if no act wastes a frame: no frame
without segments comes off with all others, and whenever the next one has to be copied, there is a block for it. -/
theorem run_extracted (limit : Option Nat) (earlier turns : List Turn) (plug : Plug) :
    let s := (start limit).run earlier
    let before := (s.network.plane.line plug).queue.extracted
    let after := ((s.run turns).network.plane.line plug).queue.extracted
    let handedOut := s.tally (handed · plug.key) turns
    after = before + handedOut + s.tally (wasted · plug.key) turns ∧
      (after = before + handedOut ↔
        ∀ i t, turns[i]? = some t → ((s.run (turns.take i)).prepared t).wasted plug.key t.act = 0) := by
  intro s before after handedOut
  obtain ⟨h, hs⟩ := settled_run limit earlier
  have hrun : after = before + handedOut + s.tally (wasted · plug.key) turns := hs.extracted_run plug.key turns
  refine ⟨hrun, ?_⟩
  rw [← tally_eq_zero_iff (wasted · plug.key) turns, hrun]
  omega

/-- A frame of two segments waits, and a caller has what else the budget grants. The consumer asks for the frame: it is
told that the ceiling is reached and gets nothing, and the frame counts as taken out. -/
theorem not_handed_refused :
    let own : Mac := ⟨[2, 0, 0, 0, 0, 1], rfl⟩
    let plug := Plug.ofSetUp own
    let s := (start none).run (setUp own ++
      [{ act := .host (.inject 1 (own.octets ++ List.replicate 94 0) 50) },
        { act := .block (.alloc 0 .plain none 3840) }])
    let turns : List Turn := [{ act := .splice (.takeNext 0 plug.id) }]
    let before := (s.network.plane.line plug).queue.extracted
    let after := ((s.run turns).network.plane.line plug).queue.extracted
    plug ∈ (s.network.registry 0).plugs ∧
      (s.network.takeNext 0 plug.id).1 = .error (.memory (.outOfMemory 100 4008 4096)) ∧
      (s.run turns).items = s.items ∧
      s.tally (handed · plug.key) turns = 0 ∧ before = 0 ∧ after = 1 ∧
      ¬ after = before + s.tally (handed · plug.key) turns := by
  decide +kernel

end Scene

end Patchbay
