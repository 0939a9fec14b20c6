import Patchbay.Proofs.Estate.Lifetime
import Patchbay.Proofs.Inbox.Granting

/-!
# `Proofs.Inbox.Capture` — what a splice does with a chain on a plugged interface

A splice looks the interface up, reads the destination of the first frame and either hands the chain on, queues it,
or does both with a copy of the first frame. None of this touches the slot, the splices or the number of lines, so
an interface that is plugged stays so.

## Contents
* `Backplane.waiting`, `Network.bytesWaiting` — the frames that wait at a plug;
* `Backplane.waiting_queueWhole`, `Backplane.waiting_queueCopy` — what a chain adds to them;
* `Network.Plugged` — an interface is plugged; `Network.Settled.plugged` — so is every one that a registry lists;
* `Network.Plugged.intercept_cases` — the three ways of a chain;
* `Network.Wired` — the splice is the only hook set; `Network.receive_of_stopped`, `Network.receive_of_passed`;
* `Scene.setUp`, `Plug.ofSetUp` — a host with one interface, plugged.
-/

namespace Patchbay

namespace Backplane

variable {p : Backplane} {plug : Plug} {budget : Nat}

/-- The frames that wait at a plug, in the order in which they are served. -/
def waiting (p : Backplane) (plug : Plug) : List Frame :=
  (p.line plug).queue.frames

/-- Only the lines have a part in what waits. -/
theorem waiting_congr {p' : Backplane} (h : p'.lines = p.lines) : p'.waiting plug = p.waiting plug := by
  rw [waiting, waiting, line, line, h]

theorem waiting_onQueue {α : Type} {f : Queue → Memory → α × Queue × Memory}
    (h : plug.key < p.lines.size) :
    (p.onQueue plug f).2.waiting plug = (f (p.line plug).queue p.memory).2.1.frames := by
  show ((p.setLine plug _).line plug).queue.frames = _
  rw [line_setLine h]

theorem size_onQueue {α : Type} (f : Queue → Memory → α × Queue × Memory) :
    (p.onQueue plug f).2.lines.size = p.lines.size :=
  Array.size_setIfInBounds

theorem size_queueWhole (c : Chain) :
    (Network.queueWhole p plug budget c).lines.size = p.lines.size :=
  size_onQueue _

theorem size_queueCopy (f : Frame) :
    (Network.queueCopy p plug budget f).lines.size = p.lines.size := by
  rw [Network.queueCopy]
  exact Array.size_setIfInBounds

theorem waiting_queueWhole (h : plug.key < p.lines.size) (c : Chain) :
    (Network.queueWhole p plug budget c).waiting plug =
      if p.memory.Grants budget Queue.nodeNote Queue.nodeSize then c.frames ++ p.waiting plug
      else p.waiting plug := by
  rw [Network.queueWhole, waiting_onQueue h]
  exact Queue.frames_push_eq _ _ _ c

/-- A copy shows the bytes of the frame; it may have been refused. -/
theorem waiting_queueCopy (h : plug.key < p.lines.size) (f : Frame) :
    ∃ queued, (Network.queueCopy p plug budget f).waiting plug = queued ++ p.waiting plug ∧
      ∀ g ∈ queued, g = f := by
  rw [Network.queueCopy, waiting_onQueue h]
  cases hcopy : f.copy p.memory with
  | mk copy? m =>
    cases copy? with
    | none => exact ⟨[], rfl, fun _ hg => absurd hg List.not_mem_nil⟩
    | some copy =>
      -- what was copied is the frame itself, only over more references
      obtain rfl := Frame.copy_eq hcopy
      show ∃ queued, ((p.line plug).queue.push m budget (.last copy)).2.1.frames = _ ∧ _
      rw [Queue.frames_push_eq]
      split
      · exact ⟨[copy], rfl, fun _ => List.mem_singleton.1⟩
      · exact ⟨[], rfl, fun _ hg => absurd hg List.not_mem_nil⟩

/-- With headers and a place for it the copy waits in front. -/
theorem waiting_queueCopy_granted (h : plug.key < p.lines.size) {f : Frame}
    (hheaders : p.memory.HasHeaders f.segments.length)
    (hgrants : p.memory.Grants budget Queue.nodeNote Queue.nodeSize) :
    (Network.queueCopy p plug budget f).waiting plug = f :: p.waiting plug := by
  obtain ⟨m, hcopy, hsame⟩ := Frame.copy_granted hheaders
  rw [Network.queueCopy, waiting_onQueue h, hcopy]
  show ((p.line plug).queue.push m budget (.last f)).2.1.frames = _
  rw [Queue.frames_push_eq, if_pos (hsame.grants hgrants)]
  rfl

end Backplane

namespace Network

/-- The bytes of the frames that wait at a plug. -/
def bytesWaiting (n : Network) (plug : Plug) : List (List UInt8) :=
  (n.plane.waiting plug).map Frame.bytes

variable {n n' : Network} {key : Nat} {plug : Plug}

/-- A splice has the interface of a plug, and the plug has a line of its own. -/
structure Plugged (n : Network) (key : Nat) (plug : Plug) : Prop where
  found : (n.registry key).byIndex? plug.index = some plug
  nonempty : (n.registry key).isEmpty = false
  lined : plug.key < n.plane.lines.size

/-- What a registry lists is plugged. -/
theorem Settled.plugged {k : Memory.Bookkeeping} {h : History} {e : Estate} (hs : n.Settled k h e)
    (hplug : plug ∈ (n.registry key).plugs) : n.Plugged key plug := by
  have hsound := hs.registry_sound key
  refine ⟨hsound.byIndex? hplug, hsound.isEmpty hplug, hs.plane.lined ?_⟩
  obtain ⟨others, hothers⟩ := exists_estate_eq hplug
  rw [hothers, add_left_comm]
  exact Backplane.mem_plugs plug _

theorem Plugged.of_same (h : n.Plugged key plug) (hsplices : n'.splices = n.splices)
    (hlines : n'.plane.lines.size = n.plane.lines.size) : n'.Plugged key plug := by
  have hregistry : n'.registry key = n.registry key := by rw [registry, registry, hsplices]
  refine ⟨?_, ?_, ?_⟩
  · rw [hregistry]
    exact h.found
  · rw [hregistry]
    exact h.nonempty
  · rw [hlines]
    exact h.lined

/-- The first frame of a chain decides for all of it: the chain is copied and goes on, is queued, or goes on. -/
theorem Plugged.intercept_cases (h : n.Plugged key plug) (c : Chain) :
    (c.head.destination? = some Mac.broadcast ∧ n.intercept key plug.index c =
      (some c, { n with plane := queueCopy n.plane plug (n.budgetOf key) c.head })) ∨
    (c.head.destination? = some plug.virtualMac ∧ plug.virtualMac ≠ Mac.broadcast ∧
      n.intercept key plug.index c =
        (none, { n with plane := queueWhole n.plane plug (n.budgetOf key) c })) ∨
    (c.head.destination? ≠ some plug.virtualMac ∧ c.head.destination? ≠ some Mac.broadcast ∧
      n.intercept key plug.index c = (some c, n)) := by
  simp only [intercept, h.nonempty, h.found]
  -- a first frame too short for a destination is nobody's
  cases c.head.destination? with
  | none => exact .inr (.inr ⟨nofun, nofun, rfl⟩)
  | some destination =>
    by_cases hall : destination = Mac.broadcast
    · refine .inl ⟨congrArg some hall, ?_⟩
      simp [Verdict.of, hall]
    by_cases hown : destination = plug.virtualMac
    · refine .inr (.inl ⟨congrArg some hown, hown ▸ hall, ?_⟩)
      simp [Verdict.of, hown, hown ▸ hall]
    · refine .inr (.inr ⟨fun h => hown (Option.some.inj h), fun h => hall (Option.some.inj h), ?_⟩)
      simp [Verdict.of, hown, hall]

/-- A chain on a plugged interface leaves the slot, the splices and the lines where they are. -/
theorem Plugged.intercept_same (h : n.Plugged key plug) (c : Chain) :
    (n.intercept key plug.index c).2.splices = n.splices ∧
      (n.intercept key plug.index c).2.slot = n.slot ∧
      (n.intercept key plug.index c).2.plane.lines.size = n.plane.lines.size := by
  rcases h.intercept_cases c with ⟨-, heq⟩ | ⟨-, -, heq⟩ | ⟨-, -, heq⟩
  · rw [heq]
    exact ⟨rfl, rfl, Backplane.size_queueCopy c.head⟩
  · rw [heq]
    exact ⟨rfl, rfl, Backplane.size_queueWhole c⟩
  · rw [heq]
    exact ⟨rfl, rfl, rfl⟩

/-! ## The only hook set -/

/-- The splice is the only hook set, and the plug is in its registry under its id. -/
structure Wired (n : Network) (key : Nat) (plug : Plug) : Prop extends n.Plugged key plug where
  named : (n.registry key).byId? plug.id = some plug
  slot : n.slot = some (.splice key)
  only : n.previous? key = none

theorem Wired.of_same (h : n.Wired key plug) (hsplices : n'.splices = n.splices)
    (hslot : n'.slot = n.slot) (hlines : n'.plane.lines.size = n.plane.lines.size) :
    n'.Wired key plug := by
  refine ⟨h.toPlugged.of_same hsplices hlines, ?_, ?_, ?_⟩
  · rw [registry, hsplices]
    exact h.named
  · rw [hslot]
    exact h.slot
  · rw [previous?, hsplices]
    exact h.only

theorem offerInput_splice (n : Network) (index : Nat) (c : Chain) (key : Nat) :
    n.offerInput index c [.splice key] = n.intercept key index c := by
  unfold offerInput
  split <;> rename_i heq <;> rw [heq]
  rfl

theorem offerOutput_splice (n : Network) (index : Nat) (c : Chain) (key : Nat) :
    n.offerOutput index c [.splice key] =
      (.ok (n.intercept key index c).1, (n.intercept key index c).2) := by
  unfold offerOutput
  split <;> rename_i heq <;> rw [heq]
  rfl

/-- A chain meets the splice and nothing else. -/
theorem path_eq (hslot : n.slot = some (.splice key)) (honly : n.previous? key = none) :
    n.path = [.splice key] := by
  rw [path, hslot, hooksFrom, honly]
  cases n.splices.size <;> rfl

section Receive

variable {index : Nat} {c : Chain} (hslot : n.slot = some (.splice key)) (honly : n.previous? key = none)
include hslot honly

/-- A chain that is received is offered to the splice, and is done with where it stops there. -/
theorem receive_of_stopped
    (hstopped : n.intercept key index (c.setHead { c.head with receivedOn := some index }) = (none, n')) :
    n.receive index c = n' := by
  unfold receive
  dsimp only
  rw [path_eq hslot honly, offerInput_splice, hstopped]

/-- What goes on reaches the stack. -/
theorem receive_of_passed {d : Chain}
    (hpassed : n.intercept key index (c.setHead { c.head with receivedOn := some index }) = (some d, n')) :
    n.receive index c = n'.reachStack index d := by
  unfold receive
  dsimp only
  rw [path_eq hslot honly, offerInput_splice, hpassed]

end Receive

end Network

/-! ## A host with a consumer -/

/-- The acts that make a host with a splice for its only hook set, and one interface, plugged under the id 7 by a
consumer that listens on an address. -/
def Scene.setUp (own : Mac) : List Turn :=
  [{ act := .host (.addInterface "" (some Mac.broadcast) 1500 1) },
    { act := .block (.addBudget 4096 false) },
    { act := .splice (.start 0) },
    { act := .splice (.plug 0 "" 7 own) }]

/-- The plug that they make. -/
def Plug.ofSetUp (own : Mac) : Plug where
  key := 0
  id := 7
  index := 1
  name := ""
  realMac := Mac.broadcast
  virtualMac := own
  flags := 1
  marked := true
  record := ⟨0, 1, .plain, .zeroed 168⟩

end Patchbay
