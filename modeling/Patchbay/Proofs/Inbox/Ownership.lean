import Patchbay.Proofs.Inbox.Capture

/-!
# `Proofs.Inbox.Ownership` — whose the frames of a chain are

A frame for the consumer alone should not get past its splice, and a frame for somebody else should not be queued. A
splice looks at the first frame of a chain only, so both hold just for the chains whose first frame speaks for the
others.

## Contents
* `Guards` — no frame ends up where it should not;
* `Network.GuardsOffered`, `Network.GuardsReceived` — the hooks do this for a chain, and so does the host;
* `HeadSpeaks` — the first frame of a chain speaks for the others;
* `guards_iff` — a chain is guarded if and only if its first frame speaks for the others.
-/

namespace Patchbay

namespace Inbox

/-- No frame that goes on is for the consumer alone, and no frame that is queued is for somebody else. -/
structure Guards (own : Mac) (onward queued : List (List UInt8)) : Prop where
  onward : ∀ bytes ∈ onward, Mac.destination? bytes ≠ some own
  queued : ∀ bytes ∈ queued,
    Mac.destination? bytes = some own ∨ Mac.destination? bytes = some Mac.broadcast

/-- The first frame speaks for the others: behind one for the consumer alone there is none for somebody else, unless
the queue does not let the chain in, and behind any other one there is none for the consumer alone. -/
def HeadSpeaks (own : Mac) (admitted : Prop) (frames : List (List UInt8)) : Prop :=
  if frames.head?.bind Mac.destination? = some own then
    admitted → ∀ bytes ∈ frames,
      Mac.destination? bytes = some own ∨ Mac.destination? bytes = some Mac.broadcast
  else ∀ bytes ∈ frames, Mac.destination? bytes ≠ some own

instance (own : Mac) (admitted : Prop) [Decidable admitted] (frames : List (List UInt8)) :
    Decidable (HeadSpeaks own admitted frames) :=
  inferInstanceAs (Decidable (ite _ _ _))

/-- The bytes of the frames of a chain. -/
def framesOf (c : Chain) : List (List UInt8) :=
  c.frames.map Frame.bytes

/-- What is queued goes in front of what waits already. -/
def Queues (n n' : Network) (plug : Plug) (queued : List (List UInt8)) : Prop :=
  n'.bytesWaiting plug = queued ++ n.bytesWaiting plug

/-- The input and the output hook of a splice guard a chain that they are offered. -/
def GuardsOffered (n : Network) (key : Nat) (plug : Plug) (c : Chain) : Prop :=
  ∃ queued, Queues n (n.intercept key plug.index c).2 plug queued ∧
    Guards plug.virtualMac ((n.intercept key plug.index c).1.toList.flatMap framesOf) queued

/-- The host guards a chain that it receives on an interface: what reaches its stack, and what is queued. -/
def GuardsReceived (n : Network) (plug : Plug) (c : Chain) : Prop :=
  ∃ reached queued, (n.receive plug.index c).stack = n.stack ++ reached ∧
    Queues n (n.receive plug.index c) plug queued ∧
    Guards plug.virtualMac (reached.toList.map Delivery.bytes) queued

/-! ## What a splice does with the frames -/

variable {n : Network} {key : Nat} {plug : Plug}

/-- A chain is queued, or goes on while at most a frame for everybody is queued. -/
theorem intercept_frames (h : n.Plugged key plug) (hown : plug.virtualMac ≠ Mac.broadcast) (c : Chain) :
    (c.head.destination? = some plug.virtualMac ∧ (n.intercept key plug.index c).1 = none ∧
      Queues n (n.intercept key plug.index c).2 plug
        (if n.memory.Grants (n.budgetOf key) Queue.nodeNote Queue.nodeSize then framesOf c else [])) ∨
    (c.head.destination? ≠ some plug.virtualMac ∧ (n.intercept key plug.index c).1 = some c ∧
      ∃ queued, Queues n (n.intercept key plug.index c).2 plug queued ∧
        ∀ bytes ∈ queued, Mac.destination? bytes = some Mac.broadcast) := by
  rcases h.intercept_cases c with ⟨hall, heq⟩ | ⟨hmine, -, heq⟩ | ⟨hother, -, heq⟩
  · refine .inr ⟨?_, by rw [heq], ?_⟩
    · -- here the address must not be everybody's, or the frame would be for the consumer alone
      rw [hall]
      intro h
      exact hown (Option.some.inj h).symm
    · obtain ⟨queued, hqueued, hcopy⟩ := Backplane.waiting_queueCopy h.lined c.head
      refine ⟨queued.map Frame.bytes, ?_, fun bytes hbytes => ?_⟩
      · rw [heq, Queues, Network.bytesWaiting, hqueued, List.map_append]
        rfl
      · obtain ⟨f, hf, rfl⟩ := List.mem_map.1 hbytes
        rw [hcopy f hf, ← Frame.destination?_eq]
        exact hall
  · refine .inl ⟨hmine, by rw [heq], ?_⟩
    rw [heq, Queues, Network.bytesWaiting, Backplane.waiting_queueWhole h.lined]
    show _ = (if n.plane.memory.Grants _ _ _ then _ else _) ++ _
    split
    · rw [List.map_append]
      rfl
    · rfl
  · refine .inr ⟨hother, by rw [heq], [], by rw [heq]; rfl, fun _ h => absurd h List.not_mem_nil⟩

/-- What is queued is settled by what waits before and after. -/
theorem exists_queues_iff {n' : Network} {queued : List (List UInt8)} (h : Queues n n' plug queued)
    (p : List (List UInt8) → Prop) : (∃ other, Queues n n' plug other ∧ p other) ↔ p queued := by
  constructor
  · rintro ⟨other, hother, hp⟩
    rwa [List.append_cancel_right (h.symm.trans hother)]
  · intro hp
    exact ⟨queued, h, hp⟩

theorem head_framesOf (c : Chain) :
    (framesOf c).head?.bind Mac.destination? = c.head.destination? := by
  rw [framesOf, c.frames_eq_cons, Frame.destination?_eq]
  rfl

theorem guardsOffered_iff (h : n.Plugged key plug) (hown : plug.virtualMac ≠ Mac.broadcast)
    (c : Chain) :
    GuardsOffered n key plug c ↔ HeadSpeaks plug.virtualMac
      (n.memory.Grants (n.budgetOf key) Queue.nodeNote Queue.nodeSize) (framesOf c) := by
  rw [HeadSpeaks, head_framesOf, GuardsOffered]
  rcases intercept_frames h hown c with ⟨hmine, honward, hqueues⟩ | ⟨hother, honward, queued, hqueues, hall⟩
  · -- nothing goes on, so the queue is all that counts
    rw [exists_queues_iff hqueues, honward, if_pos hmine]
    constructor
    · intro hguards hgrants
      have hqueued := hguards.queued
      rwa [if_pos hgrants] at hqueued
    · intro hspeaks
      refine ⟨fun _ hmem => absurd hmem List.not_mem_nil, ?_⟩
      split
      · rename_i hgrants
        exact hspeaks hgrants
      · intro _ hmem
        exact absurd hmem List.not_mem_nil
  · -- the queue gets nothing that it should not, so what goes on is all that counts
    rw [exists_queues_iff hqueues, honward, if_neg hother, Option.toList_some,
      List.flatMap_singleton]
    constructor
    · intro hguards
      exact hguards.onward
    · intro hspeaks
      exact ⟨hspeaks, fun bytes hbytes => .inr (hall bytes hbytes)⟩

/-! ## What the host does with them -/

/-- The chain as the hooks see it when it was received on an interface. -/
def marked (c : Chain) (index : Nat) : Chain :=
  c.setHead { c.head with receivedOn := some index }

theorem framesOf_marked (c : Chain) (index : Nat) : framesOf (marked c index) = framesOf c := by
  cases c <;> rfl

/-- What goes on from the only hook set reaches the stack. -/
theorem receive_eq (h : n.Plugged key plug) (hslot : n.slot = some (.splice key))
    (honly : n.previous? key = none) (c : Chain) :
    ∃ reached, (n.receive plug.index c).stack = n.stack ++ reached ∧
      reached.toList.map Delivery.bytes =
        (n.intercept key plug.index (marked c plug.index)).1.toList.flatMap framesOf ∧
      (n.receive plug.index c).plane.lines =
        (n.intercept key plug.index (marked c plug.index)).2.plane.lines := by
  have hstack : (n.intercept key plug.index (marked c plug.index)).2.stack = n.stack := by
    rcases h.intercept_cases (marked c plug.index) with ⟨-, heq⟩ | ⟨-, -, heq⟩ | ⟨-, -, heq⟩ <;> rw [heq]
  cases hoffered : n.intercept key plug.index (marked c plug.index) with
  | mk chain? n₁ =>
    rw [hoffered] at hstack
    cases chain? with
    | none =>
      rw [Network.receive_of_stopped hslot honly hoffered]
      exact ⟨#[], by rw [Array.append_empty]; exact hstack, rfl, rfl⟩
    | some d =>
      rw [Network.receive_of_passed hslot honly hoffered]
      refine ⟨(Delivery.ofChain plug.index d).toArray, ?_, ?_, rfl⟩
      · rw [← hstack]
        rfl
      · rw [Delivery.ofChain, List.map_map, Option.toList_some, List.flatMap_singleton]
        rfl

theorem guardsReceived_iff (h : n.Plugged key plug) (hown : plug.virtualMac ≠ Mac.broadcast)
    (hslot : n.slot = some (.splice key)) (honly : n.previous? key = none) (c : Chain) :
    GuardsReceived n plug c ↔ HeadSpeaks plug.virtualMac
      (n.memory.Grants (n.budgetOf key) Queue.nodeNote Queue.nodeSize) (framesOf c) := by
  obtain ⟨reached, hstack, hreached, hlines⟩ := receive_eq h hslot honly c
  have hwaiting : (n.receive plug.index c).bytesWaiting plug =
      (n.intercept key plug.index (marked c plug.index)).2.bytesWaiting plug :=
    congrArg (List.map Frame.bytes) (Backplane.waiting_congr hlines)
  have hqueues (queued : List (List UInt8)) : Queues n (n.receive plug.index c) plug queued ↔
      Queues n (n.intercept key plug.index (marked c plug.index)).2 plug queued := by
    rw [Queues, Queues, hwaiting]
  -- the mark of the interface changes no bytes, so the hook's view of the chain decides
  rw [← framesOf_marked c plug.index, ← guardsOffered_iff h hown, GuardsOffered, ← hreached]
  constructor
  · rintro ⟨others, queued, hothers, hq, hguards⟩
    rw [(Array.append_right_inj n.stack).1 (hstack.symm.trans hothers)]
    exact ⟨queued, (hqueues queued).1 hq, hguards⟩
  · rintro ⟨queued, hq, hguards⟩
    exact ⟨reached, queued, hstack, (hqueues queued).2 hq, hguards⟩

/-- **A chain is guarded if and only if its first frame speaks for the others.** On a host after any run of acts,
for a plug whose address is not everybody's: the hooks of its splice let no frame for the consumer alone go on and
queue no frame for somebody else just when the first frame of the chain speaks for the others. Where the splice is
the only hook set, the same holds of what reaches the host's stack. -/
theorem guards_iff (limit : Option Nat) (turns : List Turn) {key : Nat} {plug : Plug}
    (hplug : plug ∈ (((Scene.start limit).run turns).network.registry key).plugs)
    (hown : plug.virtualMac ≠ Mac.broadcast) (c : Chain) :
    let n := ((Scene.start limit).run turns).network
    let speaks := HeadSpeaks plug.virtualMac
      (n.memory.Grants (n.budgetOf key) Queue.nodeNote Queue.nodeSize) (framesOf c)
    (GuardsOffered n key plug c ↔ speaks) ∧
    (n.slot = some (.splice key) → n.previous? key = none → (GuardsReceived n plug c ↔ speaks)) := by
  intro n speaks
  obtain ⟨h, hs⟩ := Scene.settled_run limit turns
  have hplugged : n.Plugged key plug := Network.Settled.plugged hs hplug
  exact ⟨guardsOffered_iff hplugged hown c,
    fun hslot honly => guardsReceived_iff hplugged hown hslot honly c⟩

/-- A frame for the consumer alone in front of one for everybody: both are queued, and nothing reaches the stack. -/
theorem guards_iff_mine_first :
    let own : Mac := ⟨[2, 0, 0, 0, 0, 1], rfl⟩
    let n := ((Scene.start none).run (Scene.setUp own)).network
    let plug := Plug.ofSetUp own
    let f (key : Nat) (bytes : List UInt8) : Frame := ⟨[.whole ⟨key, .cluster (.ofList bytes)⟩], none⟩
    let c : Chain := .link (f 0 [2, 0, 0, 0, 0, 1]) (.last (f 1 [255, 255, 255, 255, 255, 255]))
    plug ∈ (n.registry 0).plugs ∧ plug.virtualMac ≠ Mac.broadcast ∧ GuardsReceived n plug c := by
  intro own n plug f c
  have hplug : plug ∈ (n.registry 0).plugs := by decide +kernel
  have hown : plug.virtualMac ≠ Mac.broadcast := by decide
  obtain ⟨-, hreceived⟩ := guards_iff none (Scene.setUp own) hplug hown c
  exact ⟨hplug, hown, (hreceived rfl rfl).2 (by decide +kernel)⟩

/-- A frame for the consumer alone behind one for somebody else reaches the stack. -/
theorem not_guards_foreign_first :
    let own : Mac := ⟨[2, 0, 0, 0, 0, 1], rfl⟩
    let frames : List FrameSpec := [{ bytes := [2, 0, 0, 0, 0, 9] }, { bytes := [2, 0, 0, 0, 0, 1] }]
    let s := (Scene.start none).run (Scene.setUp own ++ [{ act := .packet (.make frames) }])
    let plug := Plug.ofSetUp own
    let f (key : Nat) (bytes : List UInt8) : Frame := ⟨[.whole ⟨key, .cluster (.ofList bytes)⟩], none⟩
    let c : Chain := .link (f 0 [2, 0, 0, 0, 0, 9]) (.last (f 1 [2, 0, 0, 0, 0, 1]))
    s.items = [.chain c] ∧ plug ∈ (s.network.registry 0).plugs ∧ plug.virtualMac ≠ Mac.broadcast ∧
      (∀ f ∈ c.frames, 6 ≤ f.length) ∧
      (s.network.receive plug.index c).stack.toList.map Delivery.bytes =
        [[2, 0, 0, 0, 0, 9], [2, 0, 0, 0, 0, 1]] ∧
      ¬GuardsReceived s.network plug c := by
  intro own frames s plug f c
  have hrows : (s.network.receive plug.index c).stack.toList.map Delivery.bytes =
      [[2, 0, 0, 0, 0, 9], [2, 0, 0, 0, 0, 1]] := by decide +kernel
  refine ⟨by decide +kernel, by decide +kernel, by decide, by decide, hrows, ?_⟩
  -- any split of the stack into old and new is this one, as the stack was empty
  rintro ⟨reached, queued, hstack, -, hguards⟩
  have hempty : s.network.stack = #[] := by decide +kernel
  rw [hempty, Array.empty_append] at hstack
  rw [hstack] at hrows
  rw [hrows] at hguards
  exact hguards.onward own.octets (by decide) (by decide)

end Inbox

end Patchbay
