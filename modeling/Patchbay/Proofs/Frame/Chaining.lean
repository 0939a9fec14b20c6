import Patchbay.Proofs.Frame.Sending

/-!
# `Proofs.Frame.Chaining` — a chain is a list of frames, and there is one at least

A chain is linked from frame to frame: one is put behind another by going down to its last frame, and it is taken apart,
counted and noted down from the front. Read as the list of its frames it is put together as lists are, and taking it
apart hands out the front and the rest of this list. No list without a frame is read from a chain, every other one from
a single chain.

## Contents
* `Chain.frames_injective`, `Chain.existsUnique_frames_iff` — chains and lists of frames;
* `Chain.append_assoc` — chains one behind the other;
* `Chain.detach`, `Chain.rest?_eq_some_iff` — the first frame alone, and what was behind it;
* `Chain.peel`, `Chain.peel_eq` — frames taken off the front, by induction on their number;
* `Delivery.noteEach`, `Delivery.noteEach_eq` — rows written as the frames are taken off;
* `Network.wire_transmit_append` — a chain behind another comes to the wire behind it;
* `Chain.is_list_of_frames` — all of it.
-/

namespace Patchbay

namespace Chain

variable {c d : Chain} {frames : List Frame}

/-! ## Chains and lists -/

theorem frames_ne_nil (c : Chain) : c.frames ≠ [] := by
  rw [c.frames_eq_cons]
  exact List.cons_ne_nil _ _

/-- A packet is made again of its frames. -/
theorem ofFrames?_frames (c : Chain) : ofFrames? c.frames = some c := by
  induction c with
  | last f => rfl
  | link f rest ih => rw [Chain.frames, ofFrames?, ih]

/-- Packets of the same frames are the same. -/
theorem frames_injective (h : c.frames = d.frames) : c = d := by
  have hsome : some c = some d := by rw [← c.ofFrames?_frames, h, d.ofFrames?_frames]
  exact Option.some.inj hsome

/-- Any frames make a packet, if there are any. -/
theorem exists_frames (h : frames ≠ []) : ∃ c : Chain, c.frames = frames := by
  induction frames with
  | nil => exact absurd rfl h
  | cons f rest ih =>
    by_cases hrest : rest = []
    · exact ⟨.last f, by rw [hrest, Chain.frames]⟩
    · obtain ⟨c, hc⟩ := ih hrest
      exact ⟨.link f c, by rw [Chain.frames, hc]⟩

theorem existsUnique_frames_iff : (∃! c : Chain, c.frames = frames) ↔ frames ≠ [] := by
  constructor
  · rintro ⟨c, rfl, -⟩
    exact c.frames_ne_nil
  · intro h
    obtain ⟨c, rfl⟩ := exists_frames h
    exact ⟨c, rfl, fun d hd => frames_injective hd⟩

/-- It does not matter in which order packets are strung together. -/
theorem append_assoc (p q r : Chain) : (p.append q).append r = p.append (q.append r) := by
  apply frames_injective
  simp only [frames_append, List.append_assoc]

/-! ## From the front -/

/-- The first frame alone, and the chain that was behind it. -/
def detach (c : Chain) : Chain × Option Chain :=
  (.last c.head, c.rest?)

/-- What was behind the first frame is the rest of the list, if there is a rest. -/
theorem rest?_eq_some_iff : c.rest? = some d ↔ d.frames = c.frames.tail := by
  cases c with
  | last f =>
    constructor
    · intro h
      cases h
    · intro h
      exact absurd h d.frames_ne_nil
  | link f rest =>
    constructor
    · intro h
      cases h
      rfl
    · intro h
      rw [frames_injective h]
      rfl

/-- Something is left behind the first frame just if there are two frames at least. -/
theorem isSome_rest?_iff : c.rest?.isSome = true ↔ 1 < c.frames.length := by
  cases c with
  | last f => simp [rest?, Chain.frames]
  | link f rest =>
    have hpositive : 0 < rest.frames.length := List.length_pos_iff.2 rest.frames_ne_nil
    simpa [rest?, Chain.frames] using hpositive

/-- The rest taken as often as asked for, each time the rest of the rest before: the frames that were in front, and what
is left in the end, if anything is. -/
def peel : Nat → Chain → List Frame × Option Chain
  | 0, c => ([], some c)
  | count + 1, c =>
    match c.detach with
    | (first, none) => ([first.head], none)
    | (first, some rest) =>
      let (others, left) := peel count rest
      (first.head :: others, left)

/-- So many frames from the front of the list, and the chain of those behind them. -/
theorem peel_eq (count : Nat) (c : Chain) : c.peel count = (c.frames.take count, ofFrames? (c.frames.drop count)) := by
  induction count generalizing c with
  | zero => rw [peel, List.take_zero, List.drop_zero, ofFrames?_frames]
  | succ count ih =>
    cases c with
    | last f => simp [peel, detach, rest?, head, Chain.frames, ofFrames?]
    | link f rest => simp [peel, detach, rest?, head, Chain.frames, ih]

/-- Behind the frames of a chain comes the chain that was put there. -/
theorem peel_append (p q : Chain) : (p.append q).peel p.frames.length = (p.frames, some q) := by
  rw [peel_eq, frames_append, List.take_left, List.drop_left, ofFrames?_frames]

/-- What is left is a smaller packet. -/
theorem size_of_rest? (h : c.rest? = some d) : d.size < c.size := by
  cases c with
  | last f => cases h
  | link f rest =>
    cases h
    exact Nat.lt_succ_self _

end Chain

/-! ## Noted down -/

/-- Rows of what arrived on an interface, and one more for each frame of a chain, written as the frames are taken off
its front. -/
def Delivery.noteEach (index : Nat) (rows : Array Delivery) (c : Chain) : Array Delivery :=
  let rows := rows.push ⟨index, c.head.bytes, c.head.segments.length⟩
  match _h : c.detach.2 with
  | none => rows
  | some rest => noteEach index rows rest
termination_by c.size
decreasing_by exact Chain.size_of_rest? _h

theorem Delivery.noteEach_eq (index : Nat) (rows : Array Delivery) (c : Chain) :
    noteEach index rows c = rows ++ (ofChain index c).toArray := by
  -- on the chain: the row of its first frame is written, and those of the others behind it
  induction c generalizing rows with
  | last f =>
    rw [noteEach]
    simp [Chain.detach, Chain.rest?, ofChain, Chain.frames, Chain.head]
  | link f rest ih =>
    rw [noteEach]
    simp [Chain.detach, Chain.rest?, ofChain, Chain.frames, Chain.head, ih]

namespace Network

/-- What was put behind a chain comes to the wire behind it. -/
theorem wire_transmit_append (n : Network) (index : Nat) (p q : Chain) :
    (n.transmit index (p.append q)).wire = ((n.transmit index p).transmit index q).wire := by
  show n.wire ++ (Delivery.ofChain index (p.append q)).toArray =
    n.wire ++ (Delivery.ofChain index p).toArray ++ (Delivery.ofChain index q).toArray
  simp only [Delivery.ofChain, Chain.frames_append, List.map_append, List.append_toArray, Array.append_assoc]

end Network

/-- **A chain is the list of its frames.** A list of frames is read from one chain only, and from one at all if there is
a frame in it. One chain put behind another makes the one list behind the other, with all frames as they are, their
segments and the interfaces that they came in on. Taking a chain apart leaves its first frame alone and hands out the
chain of all others, or nothing if there are none. Its size is the length of the list, and it has more behind its first
frame if that exceeds one. So it does not matter which two of three chains are put together first; and from two chains
one behind the other, taking the rest as often as the first one has frames leaves these one by one and hands out exactly
the second. On the stack and on the wire a chain leaves one row for each of its frames, in their order, as if they were
noted down one after the other while they are taken off its front; one that is received leaves all of them or, if the
hooks do not let it go on, none, and one that was put together leaves on the wire what its parts would leave in turn. -/
theorem Chain.is_list_of_frames (p q r : Chain) :
    (∀ frames : List Frame, (∃! c : Chain, c.frames = frames) ↔ frames ≠ []) ∧
    (p.append q).frames = p.frames ++ q.frames ∧
    (∃ first behind, p.frames = first :: behind ∧ p.detach.1.frames = [first] ∧
      ∀ c, p.detach.2 = some c ↔ c.frames = behind) ∧
    (p.size = p.frames.length ∧ (p.rest?.isSome = true ↔ 1 < p.frames.length)) ∧
    (p.append q).append r = p.append (q.append r) ∧
    (p.append q).peel p.frames.length = (p.frames, some q) ∧
    ∀ (n : Network) (index : Nat),
      let rows := (p.frames.map fun f => (⟨index, f.bytes, f.segments.length⟩ : Delivery)).toArray
      rows.size = p.size ∧ (∀ before, Delivery.noteEach index before p = before ++ rows) ∧
      ((n.reachStack index p).stack = n.stack ++ rows ∧ (n.reachStack index p).wire = n.wire) ∧
      ((n.receive index p).stack = n.stack ++ (if n.letsIn index p then rows else #[]) ∧
        (n.receive index p).wire = n.wire) ∧
      ((n.transmit index p).wire = n.wire ++ rows ∧ (n.transmit index p).stack = n.stack) ∧
      (n.transmit index (p.append q)).wire = ((n.transmit index p).transmit index q).wire := by
  refine ⟨fun _ => existsUnique_frames_iff, p.frames_append q, ?_, ⟨p.length_frames.symm, isSome_rest?_iff⟩,
    append_assoc p q r, peel_append p q, ?_⟩
  · refine ⟨p.head, p.frames.tail, ?_, rfl, fun _ => rest?_eq_some_iff⟩
    rw [p.frames_eq_cons, List.tail_cons]
  · intro n index rows
    have hsize : rows.size = p.size := by
      rw [List.size_toArray, List.length_map, p.length_frames]
    obtain ⟨hwire, hstack⟩ := n.arrivals_receive index p
    exact ⟨hsize, fun before => Delivery.noteEach_eq index before p, ⟨rfl, rfl⟩, ⟨hstack, hwire⟩, ⟨rfl, rfl⟩,
      n.wire_transmit_append index p q⟩

end Patchbay
