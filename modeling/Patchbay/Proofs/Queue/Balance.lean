import Mathlib.Data.List.Perm.Basic
import Patchbay.Queue

/-!
# `Proofs.Queue.Balance` — what is let into a queue comes out of it

Whoever uses a queue lets chains in, takes frames out one by one or all together, and counts what could not be let
in. Beside the queue runs a record of all that went through it. Every frame of every chain that was let in was handed
out or still waits, once. The counters tell of this in two units: a chain is counted as it comes in, and a frame as it
goes out, so they balance for chains of one frame and for no others.

## Contents
* `Queue.Move`, `Queue.Usage`, `Usage.step`, `Usage.run` — a queue in use, and the record of what went through it;
* `Usage.Conserved` — queue, counters and record agree; `Conserved.push`, `Conserved.take`, `Conserved.drain`;
* `Usage.run_balance` — when the counters balance;
* `Usage.not_balanced_chained` — a chain of two frames.
-/

namespace Patchbay

namespace Queue

/-! ## All that an operation can do -/

/-- A chain is let in, paid for with a block, or it goes and is counted. -/
theorem push_cases (q : Queue) (m : Memory) (budget : Nat) (c : Chain) :
    (∃ m', q.push m budget c = (false, q.countDrop, m')) ∨
    (∃ charge m', q.push m budget c =
      (true, { q with nodes := ⟨c, charge⟩ :: q.nodes, admitted := q.admitted + 1 }, m')) := by
  unfold push
  split
  · exact .inl ⟨_, rfl⟩
  · exact .inr ⟨_, _, rfl⟩

/-- There is nothing to take, or the first frame is taken and counted, and the others stay. -/
theorem take?_cases (q : Queue) (m : Memory) :
    (q.take? m = (none, q, m) ∧ q.nodes = []) ∨
    (∃ f q' m', q.take? m = (some f, q', m') ∧ q.frames = f :: q'.frames ∧ q'.admitted = q.admitted ∧
      q'.dropped = q.dropped ∧ q'.extracted = q.extracted + 1) := by
  obtain ⟨nodes, admitted, dropped, extracted⟩ := q
  cases nodes with
  | nil => exact .inl ⟨rfl, rfl⟩
  | cons node rest =>
    right
    obtain ⟨chain, charge⟩ := node
    cases chain with
    | last f => exact ⟨f, ⟨rest, admitted, dropped, extracted + 1⟩, m.free charge, rfl, rfl, rfl, rfl, rfl⟩
    | link f behind =>
      exact ⟨f, ⟨⟨behind, charge⟩ :: rest, admitted, dropped, extracted + 1⟩, m, rfl, rfl, rfl, rfl, rfl⟩

/-! ## A queue in use -/

/-- What is done with a queue, or beside it. -/
inductive Move where
  | push (budget : Nat) (c : Chain)
  | countDrop
  | take
  | drain
  /-- Somebody else uses the memory, and budgets may answer differently from then on. -/
  | elsewhere (m : Memory)

/-- A queue in use, with the memory beside it and a record of what went through it. -/
structure Usage where
  queue : Queue := {}
  memory : Memory
  /-- The chains that were let in. -/
  letIn : List Chain := []
  /-- How many chains were not. -/
  turnedAway : Nat := 0
  /-- The frames that were handed out. -/
  handedOut : List Frame := []

namespace Usage

/-- One move. -/
def step (u : Usage) : Move → Usage
  | .push budget c =>
    match u.queue.push u.memory budget c with
    | (true, q, m) => { u with queue := q, memory := m, letIn := u.letIn ++ [c] }
    | (false, q, m) => { u with queue := q, memory := m, turnedAway := u.turnedAway + 1 }
  | .countDrop => { u with queue := u.queue.countDrop, turnedAway := u.turnedAway + 1 }
  | .take =>
    match u.queue.take? u.memory with
    | (frame?, q, m) => { u with queue := q, memory := m, handedOut := u.handedOut ++ frame?.toList }
  | .drain =>
    match u.queue.drain u.memory with
    | (frames, q, m) => { u with queue := q, memory := m, handedOut := u.handedOut ++ frames }
  | .elsewhere m => { u with memory := m }

/-- Moves one after another. -/
def run (u : Usage) (moves : List Move) : Usage :=
  moves.foldl step u

/-! ## What moves keep -/

/-- The counters are those of the record, and each frame that was let in was handed out or still waits. -/
structure Conserved (u : Usage) : Prop where
  admitted : u.queue.admitted = u.letIn.length
  dropped : u.queue.dropped = u.turnedAway
  extracted : u.queue.extracted = u.handedOut.length
  frames : (u.handedOut ++ u.queue.frames).Perm (u.letIn.flatMap Chain.frames)

namespace Conserved

variable {u : Usage}

theorem new (m : Memory) : Conserved { memory := m } := by
  constructor
  · rfl
  · rfl
  · rfl
  · exact .refl []

theorem push (h : u.Conserved) (budget : Nat) (c : Chain) : (u.step (.push budget c)).Conserved := by
  obtain ⟨hadmitted, hdropped, hextracted, hframes⟩ := h
  rcases u.queue.push_cases u.memory budget c with ⟨m, heq⟩ | ⟨charge, m, heq⟩
  · simp only [step, heq]
    refine ⟨hadmitted, ?_, hextracted, hframes⟩
    simp [Queue.countDrop, hdropped]
  · simp only [step, heq]
    refine ⟨?_, hdropped, hextracted, ?_⟩
    · simp [hadmitted]
    · -- the chain comes in front of what waits, and last in the record
      have hcomm : (u.handedOut ++ (c.frames ++ u.queue.frames)).Perm
          (u.handedOut ++ u.queue.frames ++ c.frames) := by
        rw [List.append_assoc]
        exact List.perm_append_comm.append_left _
      rw [List.flatMap_append, List.flatMap_singleton]
      exact hcomm.trans (hframes.append_right _)

theorem take (h : u.Conserved) : (u.step .take).Conserved := by
  obtain ⟨hadmitted, hdropped, hextracted, hframes⟩ := h
  rcases u.queue.take?_cases u.memory with ⟨heq, -⟩ | ⟨f, q, m, heq, hcons, ha, hd, he⟩
  · simp only [step, heq, Option.toList_none, List.append_nil]
    exact ⟨hadmitted, hdropped, hextracted, hframes⟩
  · simp only [step, heq, Option.toList_some]
    refine ⟨ha.trans hadmitted, hd.trans hdropped, ?_, ?_⟩
    · simp [he, hextracted]
    · -- what was first among those that wait is last among those handed out
      rw [hcons] at hframes
      simpa using hframes

theorem drain (h : u.Conserved) : (u.step .drain).Conserved := by
  obtain ⟨hadmitted, hdropped, hextracted, hframes⟩ := h
  refine ⟨hadmitted, hdropped, ?_, ?_⟩
  · simp [step, Queue.drain_eq, hextracted]
  · simpa [step, Queue.drain_eq, Queue.frames] using hframes

theorem step (h : u.Conserved) (move : Move) : (u.step move).Conserved := by
  cases move with
  | push budget c => exact h.push budget c
  | countDrop =>
    obtain ⟨hadmitted, hdropped, hextracted, hframes⟩ := h
    refine ⟨hadmitted, ?_, hextracted, hframes⟩
    simp [Usage.step, Queue.countDrop, hdropped]
  | take => exact h.take
  | drain => exact h.drain
  | elsewhere m =>
    obtain ⟨hadmitted, hdropped, hextracted, hframes⟩ := h
    exact ⟨hadmitted, hdropped, hextracted, hframes⟩

theorem run (h : u.Conserved) (moves : List Move) : (u.run moves).Conserved := by
  induction moves generalizing u with
  | nil => exact h
  | cons move rest ih => exact ih (h.step move)

/-- Counted by frames, what was let in is what was taken out and what waits. -/
theorem total_size (h : u.Conserved) :
    total Chain.size u.letIn = u.queue.extracted + u.queue.frames.length := by
  have hlength := h.frames.length_eq
  rw [List.length_append, ← h.extracted, length_flatMap_eq_total] at hlength
  simp only [Chain.length_frames] at hlength
  exact hlength.symm

end Conserved

/-! ## The balance of the counters -/

theorem one_le_size (c : Chain) : 1 ≤ c.size := by
  cases c with
  | last f => exact Nat.le_refl 1
  | link f rest => exact Nat.le_add_left 1 rest.size

/-- There are no more chains than frames in them. -/
theorem length_le_total (chains : List Chain) : chains.length ≤ total Chain.size chains := by
  induction chains with
  | nil => exact Nat.le_refl 0
  | cons c rest ih =>
    have := one_le_size c
    rw [List.length_cons, total_cons]
    omega

/-- There are as many only if each is a single frame. -/
theorem length_eq_total_iff (chains : List Chain) :
    chains.length = total Chain.size chains ↔ ∀ c ∈ chains, c.size = 1 := by
  induction chains with
  | nil => simp
  | cons c rest ih =>
    have := length_le_total rest
    have := one_le_size c
    rw [List.forall_mem_cons, List.length_cons, total_cons]
    constructor
    · intro h
      exact ⟨by omega, ih.1 (by omega)⟩
    · rintro ⟨hc, hrest⟩
      have := ih.2 hrest
      omega

/-- **Frames are conserved, and the counters balance for chains of one frame only.** Take a new queue and any moves:
chains of any size that are let in or not, drops that are counted, frames taken and queues drained, and whatever else
is done with the memory in between. At every moment each frame of each chain that was let in was handed out or still
waits, once. The frames taken out and those that wait are together as many as were let in. The queue counts chains as
they come in, so what it says was admitted is what was taken out and what waits just if every chain that was let in is
a single frame; it never says more. -/
theorem run_balance (m : Memory) (moves : List Move) :
    let u := Usage.run { memory := m } moves
    u.Conserved ∧
      total Chain.size u.letIn = u.queue.extracted + u.queue.frames.length ∧
      u.queue.admitted ≤ u.queue.extracted + u.queue.frames.length ∧
      (u.queue.admitted = u.queue.extracted + u.queue.frames.length ↔ ∀ c ∈ u.letIn, c.size = 1) := by
  intro u
  have h : u.Conserved := (Conserved.new m).run moves
  rw [h.admitted, ← h.total_size]
  exact ⟨h, rfl, length_le_total u.letIn, length_eq_total_iff u.letIn⟩

/-- A chain of two frames is let in and taken out: one was admitted, and two were extracted. -/
theorem not_balanced_chained :
    let f (key : Nat) (bytes : List UInt8) : Frame := ⟨[.whole ⟨key, .cluster (.ofList bytes)⟩], none⟩
    let c : Chain := .link (f 0 [1]) (.last (f 1 [2]))
    let u := Usage.run { memory := (({} : Memory).addBudget 4096 false).2 } [.push 0 c, .take, .take]
    u.handedOut = [f 0 [1], f 1 [2]] ∧ u.queue.frames = [] ∧ u.queue.admitted = 1 ∧ u.queue.extracted = 2 ∧
      ¬ u.queue.admitted = u.queue.extracted + u.queue.frames.length ∧ ¬ u.queue.extracted ≤ u.queue.admitted := by
  decide +kernel

end Usage

end Queue

end Patchbay
