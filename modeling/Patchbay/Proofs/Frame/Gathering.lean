import Patchbay.Proofs.Frame.Segmenting

/-!
# `Proofs.Frame.Gathering` — bytes out of several segments are those of one piece

Whoever wants the front of a frame has a buffer, puts segment after segment into it behind what is there already, cuts
the last one to the room that is left, and stops when there is none. Here this is followed position by position: each
segment goes where the one before it ended, and one that does not fit would end it all. Segments may be empty and many
of them may have a part in the six bytes of an address; what comes of it is the front of the bytes in one piece.

## Contents
* `Frame.fill?` — segments put into a buffer one behind the other;
* `Frame.fill?_append` — by induction on the segments, with what is filled in front and the room behind it;
* `Frame.fill?_eq_copyInto`, `Frame.copyInto_of_length` — a buffer of any length, and one of the frame's own;
* `Frame.destination?_eq_copyInto`, `Frame.write_eq_copyInto` — an address, and a block that the frame is laid over;
* `Frame.Alike.passed_setHead` — two frames in front of the same chain;
* `Frame.gathering_flat` — all that is read of a frame is read from the bytes in one piece.
-/

namespace Patchbay

/-- Bytes put behind those in front leave these as they are. -/
theorem Budget.overwrite_append (front room data : List UInt8) :
    overwrite (front ++ room) front.length data = (front ++ data) ++ room.drop data.length := by
  rw [overwrite, List.take_left, List.drop_length_add_append]

namespace Frame

/-- Segments put into a buffer, each behind the `copied` bytes that are there already and cut to the room that is left,
until there is none. Answers how many bytes there are then, and the buffer. -/
def fill? (buffer : List UInt8) (copied : Nat) : List Segment → Option (Nat × List UInt8)
  | [] => some (copied, buffer)
  | s :: rest =>
    if copied = buffer.length then some (copied, buffer)
    else
      let count := min s.bytes.length (buffer.length - copied)
      if copied + count ≤ buffer.length then
        fill? (Budget.overwrite buffer copied (s.bytes.take count)) (copied + count) rest
      else none

/-- What is filled stays in front; of the room behind it, as much is filled as the segments have bytes for. -/
theorem fill?_append (front room : List UInt8) (segments : List Segment) :
    let flat := segments.flatMap Segment.bytes
    let count := min room.length flat.length
    fill? (front ++ room) front.length segments =
      some (front.length + count, front ++ flat.take count ++ room.drop count) := by
  induction segments generalizing front room with
  | nil => simp [fill?]
  | cons s rest ih =>
    intro flat count
    by_cases hfull : room = []
    · -- no room is left, whatever segments there are
      subst hfull
      simp [fill?, count]
    have hroom : 0 < room.length := List.length_pos_iff.2 hfull
    have hflat : flat = s.bytes ++ rest.flatMap Segment.bytes := List.flatMap_cons
    have hlength : flat.length = s.bytes.length + (rest.flatMap Segment.bytes).length := by
      rw [hflat, List.length_append]
    rw [fill?, List.length_append, if_neg (by omega)]
    dsimp only
    rw [Nat.add_sub_cancel_left]
    rcases Nat.le_total room.length s.bytes.length with hlast | hwhole
    · -- the segment takes all the room there is, and those behind it find none
      have hcount : count = room.length := by omega
      have htaken : (s.bytes.take room.length).length = room.length := List.length_take_of_le hlast
      have hfront : front.length + room.length = (front ++ s.bytes.take room.length).length := by
        rw [List.length_append, htaken]
      rw [hcount, hflat, Nat.min_eq_right hlast, if_pos (Nat.le_refl _), Budget.overwrite_append, htaken,
        List.drop_length, hfront, ih, List.take_append_of_le_length hlast]
      simp
    · -- it is put there whole, and those behind it find less room
      have hcount : count =
          s.bytes.length + min (room.drop s.bytes.length).length (rest.flatMap Segment.bytes).length := by
        rw [List.length_drop]
        omega
      rw [Nat.min_eq_left hwhole, if_pos (Nat.add_le_add_left hwhole _), List.take_length, Budget.overwrite_append,
        ← List.length_append, ih, hcount, hflat, List.take_length_add_append, List.length_append, Nat.add_assoc,
        List.append_assoc front, ← List.drop_drop]

variable {f g : Frame}

/-- The front of a frame in a buffer, as far as either goes, and behind it what was in the buffer before. -/
theorem copyInto_eq_take (f : Frame) (buffer : List UInt8) :
    let count := min buffer.length f.bytes.length
    f.copyInto buffer = (count, f.bytes.take count ++ buffer.drop count) := by
  intro count
  have htake : f.bytes.take buffer.length = f.bytes.take count := by
    rw [List.take_eq_take_iff]
    omega
  rw [f.copyInto_eq, ← f.length_bytes, htake]

/-- Nothing is out of place on the way, and what comes of it is what the frame is copied to. -/
theorem fill?_eq_copyInto (f : Frame) (buffer : List UInt8) : fill? buffer 0 f.segments = some (f.copyInto buffer) := by
  have hfill := fill?_append [] buffer f.segments
  dsimp only at hfill
  rw [List.nil_append, List.length_nil, Nat.zero_add, List.nil_append] at hfill
  rw [hfill, f.copyInto_eq_take]
  rfl

/-- A buffer of the frame's own length is filled with its bytes. -/
theorem copyInto_of_length {buffer : List UInt8} (h : buffer.length = f.bytes.length) :
    f.copyInto buffer = (f.bytes.length, f.bytes) := by
  rw [f.copyInto_eq_take, h, Nat.min_self, List.take_length, ← h, List.drop_length, List.append_nil]

/-- An address is what fills a buffer for one. -/
theorem destination?_eq_copyInto (f : Frame) :
    f.destination? =
      if (f.copyInto (List.replicate 6 0)).1 = 6 then Mac.ofOctets? (f.copyInto (List.replicate 6 0)).2 else none := by
  rw [f.copyInto_eq_take, f.destination?_eq, List.length_replicate]
  dsimp only
  split
  · rename_i hlong
    rw [hlong, Mac.destination?, List.drop_eq_nil_of_le (by simp), List.append_nil]
  · rename_i hshort
    rw [Mac.destination?_eq_none_iff]
    omega

/-- The whole frame laid over the front of a block is the frame copied to what the block held. -/
theorem write_eq_copyInto (f : Frame) (block : Budget.Block) :
    (block.write 0 f.bytes).contents.toList = (f.copyInto block.contents.toList).2 := by
  show (block.contents.write 0 f.bytes).toList = _
  rw [Budget.Contents.toList_write, f.copyInto_eq, Budget.overlay, Budget.overwrite, Nat.sub_zero, List.take_zero,
    List.nil_append, Nat.zero_add, List.length_take, f.length_bytes]

/-- Of frames that nobody can tell apart, a splice lets a chain behind one go on if it does behind the other. -/
theorem Alike.passed_setHead (h : f.Alike g) (n : Network) (key index : Nat) (c : Chain) :
    (n.intercept key index (c.setHead f)).1.isSome = (n.intercept key index (c.setHead g)).1.isSome := by
  have hhead (f : Frame) : (c.setHead f).head = f := by cases c <;> rfl
  rw [n.isSome_intercept, n.isSome_intercept]
  simp only [hhead, h.verdict]

/-- **Gathering a frame across its segments is working on its bytes in one piece.** Take the bytes of the segments one
behind the other, however many there are and whichever of them are empty. A buffer that the frame is copied to has the
front of these bytes then, as far as either goes, and behind it what it had before; the copy tells how many bytes that
are, and putting each segment where the one before it ended comes to the same, without a place out of range. A buffer of
the frame's own length has these bytes and nothing else, and laying them over a block is copying the frame there. The
address of the frame is the one that these bytes are sent to, and it is what fills a buffer for an address, if anything
does. So whose a frame is for any consumer is told from these bytes, and of two frames that have the same, cut up
differently, nobody can tell one from the other, a splice in front of whatever chain they are included. -/
theorem gathering_flat (f : Frame) :
    let flat := f.segments.flatMap Segment.bytes
    (∀ buffer : List UInt8,
      let count := min buffer.length flat.length
      f.copyInto buffer = (count, flat.take count ++ buffer.drop count) ∧
      fill? buffer 0 f.segments = some (f.copyInto buffer)) ∧
    (f.length = flat.length ∧ f.bytes = flat ∧ f.copyInto (List.replicate f.length 0) = (flat.length, flat) ∧
      ∀ block : Budget.Block, (block.write 0 flat).contents.toList = (f.copyInto block.contents.toList).2) ∧
    (f.destination? = Mac.destination? flat ∧
      f.destination? =
        if (f.copyInto (List.replicate 6 0)).1 = 6 then Mac.ofOctets? (f.copyInto (List.replicate 6 0)).2 else none) ∧
    (∀ own, f.verdict? own = (Mac.destination? flat).map (Verdict.of · own)) ∧
    ∀ g : Frame, g.segments.flatMap Segment.bytes = flat → f.Alike g ∧
      ∀ (n : Network) (key index : Nat) (c : Chain),
        (n.intercept key index (c.setHead f)).1.isSome = (n.intercept key index (c.setHead g)).1.isSome := by
  intro flat
  have hlength : (List.replicate f.length (0 : UInt8)).length = f.bytes.length := by
    rw [List.length_replicate, f.length_bytes]
  refine ⟨?_, ⟨f.length_bytes.symm, rfl, copyInto_of_length hlength, f.write_eq_copyInto⟩, ?_, ?_, ?_⟩
  · intro buffer
    exact ⟨f.copyInto_eq_take buffer, f.fill?_eq_copyInto buffer⟩
  · exact ⟨f.destination?_eq, f.destination?_eq_copyInto⟩
  · intro own
    rw [verdict?, f.destination?_eq]
    rfl
  · intro g hg
    have halike : f.Alike g := alike_of_bytes hg.symm
    exact ⟨halike, halike.passed_setHead⟩

/-- An address over four segments, one of them empty: a buffer of nine bytes keeps the last two of its own, and in one
segment the same bytes are sent to the same address. -/
theorem gathering_flat_scattered :
    let piece (key : Nat) (bytes : List UInt8) : Segment := .whole ⟨key, .cluster (.ofList bytes)⟩
    let f : Frame := ⟨[piece 0 [2, 0], piece 1 [], piece 2 [0], piece 3 [0, 0, 1, 7]], none⟩
    let g : Frame := ⟨[piece 4 [2, 0, 0, 0, 0, 1, 7]], none⟩
    g.segments.flatMap Segment.bytes = f.segments.flatMap Segment.bytes ∧
      f.copyInto (List.replicate 9 9) = (7, [2, 0, 0, 0, 0, 1, 7, 9, 9]) ∧
      f.destination? = Mac.ofOctets? [2, 0, 0, 0, 0, 1] ∧ f.Alike g := by
  intro piece f g
  have hsame : g.segments.flatMap Segment.bytes = f.segments.flatMap Segment.bytes := by decide
  obtain ⟨hcopy, -, ⟨hdestination, -⟩, -, halike⟩ := gathering_flat f
  refine ⟨hsame, (hcopy (List.replicate 9 9)).1.trans (by decide), hdestination.trans (by decide), (halike g hsame).1⟩

end Frame

end Patchbay
