import Patchbay.Proofs.Inbox.Stack
import Patchbay.Proofs.Slot.Stacking

/-!
# `Proofs.Inbox.Received` — what waits stands as it was received

The host cuts the bytes that it receives into segments, and a frame keeps its segments while it waits. So a consumer
that takes everything gets one view for each stretch that a frame was cut into, and the frames one behind the other.

## Contents
* `Frame.IsCut` — a frame in the stretches in which the host receives;
* `Network.Plugged.waiting_intercept`, `Network.Wired.waiting_receive` — a frame that comes is all that comes to wait;
* `Inbox.Received` — a stack of frames that wait as they were received;
* `Inbox.Received.arriveEach`, `Inbox.Received.takeAll` — a batch comes, and everything is taken.
-/

namespace Patchbay

namespace Frame

/-- The segments of a frame are the stretches into which the host cuts the bytes that it receives. -/
def IsCut (f : Frame) : Prop :=
  f.segments.map Segment.bytes = pieces largestSegment f.bytes

theorem ofBytes_eq {m m' : Memory} {bytes : List UInt8} {cap : Nat} {receivedOn : Option Nat} {f : Frame}
    (h : Frame.ofBytes m bytes cap receivedOn = (some f, m')) : f.segments.map Segment.bytes = pieces cap bytes := by
  unfold ofBytes at h
  cases hs : segmentsOver m (pieces cap bytes) with
  | mk segments? m₁ =>
    rw [hs] at h
    cases segments? with
    | none => cases h
    | some segments =>
      cases h
      exact segmentsOver_eq_some hs

end Frame

namespace Backplane

variable {p p' : Backplane}

theorem waiting_of_queues (plug : Plug) (h : p'.lines.map Line.queue = p.lines.map Line.queue) :
    p'.waiting plug = p.waiting plug := by
  have hqueue (p : Backplane) : (p.line plug).queue = (p.lines.map Line.queue).getD plug.key {} := by
    rw [line, Array.getD_eq_getD_getElem?, Array.getD_eq_getD_getElem?, Array.getElem?_map]
    cases p.lines[plug.key]? <;> rfl
  rw [waiting, waiting, hqueue, hqueue, h]

theorem size_of_queues (h : p'.lines.map Line.queue = p.lines.map Line.queue) : p'.lines.size = p.lines.size := by
  have hsize := congrArg Array.size h
  rwa [Array.size_map, Array.size_map] at hsize

end Backplane

namespace Network

variable {n n' : Network} {key : Nat} {plug : Plug}

/-- Of a frame that is offered to a splice only the frame itself can come to wait. -/
theorem Plugged.waiting_intercept (h : n.Plugged key plug) {f g : Frame}
    (hg : g ∈ (n.intercept key plug.index (.last f)).2.plane.waiting plug) : g = f ∨ g ∈ n.plane.waiting plug := by
  rcases h.intercept_cases (.last f) with ⟨-, heq⟩ | ⟨-, -, heq⟩ | ⟨-, -, heq⟩
  · rw [heq] at hg
    obtain ⟨queued, hwaiting, hqueued⟩ := Backplane.waiting_queueCopy h.lined f
    have hmem : g ∈ queued ++ n.plane.waiting plug := hwaiting ▸ hg
    exact (List.mem_append.1 hmem).imp_left (hqueued g)
  · rw [heq] at hg
    have hmem : g ∈ if n.plane.memory.Grants (n.budgetOf key) Queue.nodeNote Queue.nodeSize then
        (Chain.last f).frames ++ n.plane.waiting plug else n.plane.waiting plug :=
      Backplane.waiting_queueWhole h.lined (.last f) ▸ hg
    split at hmem
    · exact (List.mem_append.1 hmem).imp_left List.mem_singleton.1
    · exact .inr hmem
  · rw [heq] at hg
    exact .inr hg

/-- Where the splice is the only hook set, receiving is offering to it; what goes on is no more of its business. -/
theorem Wired.receive_eq (h : n.Wired key plug) (f : Frame) :
    (n.receive plug.index (.last f)).splices =
        (n.intercept key plug.index (.last { f with receivedOn := some plug.index })).2.splices ∧
      (n.receive plug.index (.last f)).slot =
        (n.intercept key plug.index (.last { f with receivedOn := some plug.index })).2.slot ∧
      (n.receive plug.index (.last f)).plane.lines =
        (n.intercept key plug.index (.last { f with receivedOn := some plug.index })).2.plane.lines := by
  cases hoffered : n.intercept key plug.index (.last { f with receivedOn := some plug.index }) with
  | mk chain? n₁ =>
    cases chain? with
    | none =>
      rw [receive_of_stopped h.slot h.only hoffered]
      exact ⟨rfl, rfl, rfl⟩
    | some c =>
      rw [receive_of_passed h.slot h.only hoffered]
      exact ⟨rfl, rfl, rfl⟩

theorem Wired.receive (h : n.Wired key plug) (f : Frame) : (n.receive plug.index (.last f)).Wired key plug := by
  obtain ⟨hsplices, hslot, hlines⟩ := h.receive_eq f
  obtain ⟨hsplices', hslot', hlines'⟩ :=
    h.toPlugged.intercept_same (.last { f with receivedOn := some plug.index })
  exact h.of_same (hsplices.trans hsplices') (hslot.trans hslot') ((congrArg Array.size hlines).trans hlines')

/-- A frame from the wire leaves the splices alone. -/
theorem Wired.splices_inject (h : n.Wired key plug) (bytes : List UInt8) (cap : Nat) :
    (n.inject plug.index bytes cap).splices = n.splices := by
  unfold inject
  cases hmade : Frame.ofBytes n.memory bytes cap (some plug.index) with
  | mk f? m =>
    rw [onMemory_eq hmade]
    cases f? with
    | none => rfl
    | some f =>
      have hwired : (n.setMemory m).Wired key plug := h.of_same rfl rfl rfl
      obtain ⟨hsplices, -, -⟩ := hwired.toPlugged.intercept_same (.last { f with receivedOn := some plug.index })
      exact (hwired.receive_eq f).1.trans hsplices

theorem Wired.waiting_receive (h : n.Wired key plug) {f g : Frame}
    (hg : g ∈ (n.receive plug.index (.last f)).plane.waiting plug) :
    g = { f with receivedOn := some plug.index } ∨ g ∈ n.plane.waiting plug := by
  obtain ⟨-, -, hlines⟩ := h.receive_eq f
  rw [Backplane.waiting_congr hlines] at hg
  exact h.toPlugged.waiting_intercept hg

end Network

namespace Inbox

/-- The host mirrors a stack, and the frames on it wait as they were received. -/
structure Received (key : Nat) (plug : Plug) (n : Network) (stack : List (List UInt8)) : Prop
    extends Mirrors key plug n stack where
  cut : ∀ f ∈ n.plane.waiting plug, f.IsCut

variable {key : Nat} {plug : Plug} {n n' : Network} {stack : List (List UInt8)}

/-- Only the splices, the hook slot and the queues have a part in it. -/
theorem Received.of_same (h : Received key plug n stack) (hsplices : n'.splices = n.splices) (hslot : n'.slot = n.slot)
    (hqueues : n'.plane.lines.map Line.queue = n.plane.lines.map Line.queue) : Received key plug n' stack := by
  have hwaiting := Backplane.waiting_of_queues plug hqueues
  refine ⟨⟨h.wired.of_same hsplices hslot (Backplane.size_of_queues hqueues), ?_⟩, ?_⟩
  · rw [Network.bytesWaiting, hwaiting]
    exact h.shown
  · rw [hwaiting]
    exact h.cut

theorem Received.arrive (h : Received key plug n stack) {bytes : List UInt8}
    (hroom : HasRoom n.memory (n.budgetOf key) plug.virtualMac bytes Frame.largestSegment) :
    Received key plug (n.inject plug.index bytes Frame.largestSegment)
      (Stack.push plug.virtualMac bytes stack) where
  toMirrors := h.toMirrors.arrive hroom
  cut := by
    intro g hg
    unfold Network.inject Network.onMemory at hg
    dsimp only at hg
    cases hmade : Frame.ofBytes n.memory bytes Frame.largestSegment (some plug.index) with
    | mk f? m =>
      rw [hmade] at hg
      cases f? with
      | none => exact h.cut g hg
      | some f =>
        have hwired : (n.setMemory m).Wired key plug := h.wired.of_same rfl rfl rfl
        rcases hwired.waiting_receive hg with rfl | hg
        · have hcut : f.IsCut := (Frame.ofBytes_eq hmade).trans (by rw [(Frame.ofBytes_eq_some hmade).1])
          exact hcut
        · exact h.cut g hg

/-- A batch comes from the wire: the frames of it that are for the consumer wait, the newest in front. -/
theorem Received.arriveEach (h : Received key plug n stack) (batch : List (List UInt8))
    (hroom : ObligesAll key plug n (batch.map fun bytes => .arrive bytes Frame.largestSegment)) :
    Received key plug (run key plug n (batch.map fun bytes => .arrive bytes Frame.largestSegment)).2
      ((batch.filter (IsFor plug.virtualMac)).reverse ++ stack) := by
  induction batch generalizing n stack with
  | nil => exact h
  | cons bytes rest ih =>
    obtain ⟨hfirst, hrest⟩ := hroom
    have hnext := ih (h.arrive hfirst) hrest
    have hpush : (rest.filter (IsFor plug.virtualMac)).reverse ++ Stack.push plug.virtualMac bytes stack =
        ((bytes :: rest).filter (IsFor plug.virtualMac)).reverse ++ stack := by
      unfold Stack.push
      split
      · rename_i hfor
        rw [List.filter_cons, if_pos (decide_eq_true hfor), List.reverse_cons, List.append_assoc]
        rfl
      · rename_i hother
        rw [List.filter_cons, if_neg (mt of_decide_eq_true hother)]
    exact hpush ▸ hnext

/-- Everything is taken: one view for each stretch that a frame was cut into, and nothing waits any more. -/
theorem Received.takeAll (h : Received key plug n stack) :
    (n.takeAll key plug.id).1.map View.bytes = stack.flatMap (pieces Frame.largestSegment) ∧
      Received key plug (n.takeAll key plug.id).2 [] := by
  obtain ⟨-, hleft⟩ := h.toMirrors.takeAll
  have hnone : (n.takeAll key plug.id).2.plane.waiting plug = [] := List.map_eq_nil_iff.1 hleft.shown
  refine ⟨?_, hleft, fun f hf => absurd (hnone ▸ hf) List.not_mem_nil⟩
  have hviews : (n.takeAll key plug.id).1 =
      ((n.plane.waiting plug).map fun f => f.segments.map Segment.view).flatten :=
    Network.views_takeAll h.wired.named
  rw [hviews, ← h.shown, Network.bytesWaiting, List.map_flatten, List.map_map, List.flatMap_def, List.map_map]
  congr 1
  refine List.map_congr_left fun f hf => ?_
  rw [Function.comp_apply, Function.comp_apply, ← h.cut f hf, List.map_map]
  rfl

end Inbox

end Patchbay
