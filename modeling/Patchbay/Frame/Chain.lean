import Patchbay.Frame.Basic

/-!
# `Patchbay.Frame.Chain` — frames back to back

The host hands frames over in chains: a frame, and possibly further ones behind it. A chain is read as the
non-empty list of its frames.

## Contents
* `Chain`, `Chain.frames`, `Chain.head`, `Chain.rest?`, `Chain.size`;
* `Chain.append` — one chain behind another; `Chain.takeEach` — a chain taken apart;
* `Chain.ofFrames?` — the chain of a list of frames;
* `FrameSpec`, `Chain.make` — a chain of fresh frames, all of them or none;
* `Memory.releaseChain`.
-/

namespace Patchbay

/-- A frame and possibly further ones behind it. -/
inductive Chain where
  | last (frame : Frame)
  | link (frame : Frame) (rest : Chain)
deriving DecidableEq

namespace Chain

/-- The frames in order. -/
def frames : Chain → List Frame
  | .last f => [f]
  | .link f rest => f :: rest.frames

/-- The first frame. -/
def head : Chain → Frame
  | .last f => f
  | .link f _ => f

/-- The chain behind the first frame. -/
def rest? : Chain → Option Chain
  | .last _ => none
  | .link _ rest => some rest

/-- The number of frames. -/
def size : Chain → Nat
  | .last _ => 1
  | .link _ rest => rest.size + 1

/-- The chain with its first frame replaced. -/
def setHead (c : Chain) (f : Frame) : Chain :=
  match c with
  | .last _ => .last f
  | .link _ rest => .link f rest

/-- The frames of one chain, then those of another. -/
def append : Chain → Chain → Chain
  | .last f, d => .link f d
  | .link f rest, d => .link f (rest.append d)

/-- Takes the frames off a chain one after the other, and puts each behind those that were taken before. -/
def takeEach (taken : List Frame) : Chain → List Frame
  | .last f => taken ++ [f]
  | .link f rest => takeEach (taken ++ [f]) rest

/-- The chain of a list of frames, if it has any. -/
def ofFrames? : List Frame → Option Chain
  | [] => none
  | f :: fs => some (match ofFrames? fs with
    | none => .last f
    | some rest => .link f rest)

/-! ## The list of frames -/

theorem frames_eq_cons (c : Chain) : c.frames = c.head :: (c.rest?.map frames).getD [] := by
  cases c <;> rfl

@[simp] theorem frames_append (c d : Chain) : (c.append d).frames = c.frames ++ d.frames := by
  induction c with
  | last f => rfl
  | link f rest ih => simp [append, frames, ih]

theorem takeEach_eq (taken : List Frame) (c : Chain) : c.takeEach taken = taken ++ c.frames := by
  induction c generalizing taken with
  | last f => rfl
  | link f rest ih => rw [takeEach, ih, List.append_assoc, frames, List.singleton_append]

@[simp] theorem length_frames (c : Chain) : c.frames.length = c.size := by
  induction c with
  | last f => rfl
  | link f rest ih => simp [frames, size, ih]

end Chain

/-- Gives back all that the frames of a list hold. -/
def Memory.releaseFrames (m : Memory) (frames : List Frame) : Memory :=
  frames.foldl Memory.releaseFrame m

/-- Gives back all that the frames of a chain hold. -/
def Memory.releaseChain (m : Memory) (c : Chain) : Memory :=
  m.releaseFrames c.frames

/-! ## Fresh chains -/

/-- What a fresh frame is made of. -/
structure FrameSpec where
  bytes : List UInt8
  cap : Nat := Frame.largestSegment
  receivedOn : Option Nat := none

/-- Fresh frames in order. When one cannot be made, those made so far go back. -/
def Frame.makeEach (m : Memory) : List FrameSpec → Option (List Frame) × Memory
  | [] => (some [], m)
  | spec :: rest =>
    match Frame.ofBytes m spec.bytes spec.cap spec.receivedOn with
    | (none, m) => (none, m)
    | (some f, m) =>
      match makeEach m rest with
      | (some frames, m) => (some (f :: frames), m)
      | (none, m) => (none, m.releaseFrame f)

/-- A chain of fresh frames; there is none of no frames, and none if one cannot be made. -/
def Chain.make (m : Memory) (specs : List FrameSpec) : Option Chain × Memory :=
  let (frames, m) := Frame.makeEach m specs
  (frames.bind Chain.ofFrames?, m)

end Patchbay
