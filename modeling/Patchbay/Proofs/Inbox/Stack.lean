import Mathlib.Data.List.Forall2
import Patchbay.Proofs.Inbox.Capture

/-!
# `Proofs.Inbox.Stack` — what waits for a consumer is a stack

Frames come to a plugged interface from the wire and from the host's stack; its consumer takes the newest one or
all of them, and gives buffers back. As long as memory refuses nothing, the consumer gets what it would get from
a stack of byte strings on which just the frames for it are put. However a frame is cut, and however it is handed
over, as it stands, segment by segment or in one piece, its bytes are the ones that came.

## Contents
* `Event`, `Answer`, `step`, `run` — what happens on the host;
* `IsFor`, `Stack.step`, `Stack.run` — what happens to a stack of byte strings;
* `Shows` — what the consumer gets shows what comes off the stack;
* `Obliges`, `ObligesAll` — memory refuses none of the requests that an event, or a run, makes;
* `step_shows`, `run_shows` — the host does what the stack does, in an event and in a run;
* `run_is_stack` — so it does on every host that has the splice for its only hook set.
-/

namespace Patchbay

namespace Inbox

/-- What happens on a plugged interface, and what its consumer does. -/
inductive Event where
  /-- A frame comes from the wire, in segments of at most `cap` bytes. -/
  | arrive (bytes : List UInt8) (cap : Nat)
  /-- The host's stack sends a frame. -/
  | send (bytes : List UInt8)
  | takeNext
  | takeAll
  /-- The consumer gives a buffer back. -/
  | giveBack (v : View)

/-- What the consumer gets out of an event. -/
inductive Answer (One All : Type) where
  | nothing
  | one (answer : One)
  | all (answer : All)
deriving DecidableEq

/-! ## On the host -/

/-- An event on the interface of a plug in the registry of a splice. -/
def step (key : Nat) (plug : Plug) (n : Network) :
    Event → Answer (Except NetFailure (Option View)) (List View) × Network
  | .arrive bytes cap => (.nothing, n.inject plug.index bytes cap)
  | .send bytes => (.nothing, (n.send plug.index bytes).2)
  | .takeNext => (.one (n.takeNext key plug.id).1, (n.takeNext key plug.id).2)
  | .takeAll => (.all (n.takeAll key plug.id).1, (n.takeAll key plug.id).2)
  | .giveBack v => (.nothing, n.setMemory (n.memory.release v.storage))

/-- What the consumer gets out of events in order, and the host behind them. -/
def run (key : Nat) (plug : Plug) (n : Network) :
    List Event → List (Answer (Except NetFailure (Option View)) (List View)) × Network
  | [] => ([], n)
  | e :: rest =>
    let (answer, n) := step key plug n e
    let (answers, n) := run key plug n rest
    (answer :: answers, n)

/-! ## On a stack -/

/-- A frame is for the consumer: it has a destination, which is the consumer's address or everybody's. -/
def IsFor (own : Mac) (bytes : List UInt8) : Prop :=
  6 ≤ bytes.length ∧ (bytes.take 6 = own.octets ∨ bytes.take 6 = Mac.broadcast.octets)

instance (own : Mac) (bytes : List UInt8) : Decidable (IsFor own bytes) :=
  inferInstanceAs (Decidable (_ ∧ _))

namespace Stack

/-- A frame for the consumer is put on the stack. -/
def push (own : Mac) (bytes : List UInt8) (stack : List (List UInt8)) : List (List UInt8) :=
  if IsFor own bytes then bytes :: stack else stack

/-- An event, as it is for a stack of byte strings. -/
def step (own : Mac) (stack : List (List UInt8)) :
    Event → Answer (Option (List UInt8)) (List (List UInt8)) × List (List UInt8)
  | .arrive bytes _ => (.nothing, push own bytes stack)
  | .send bytes => (.nothing, push own bytes stack)
  | .takeNext => (.one stack.head?, stack.tail)
  | .takeAll => (.all stack, [])
  | .giveBack _ => (.nothing, stack)

/-- What comes off the stack in events in order, and the stack behind them. -/
def run (own : Mac) (stack : List (List UInt8)) :
    List Event → List (Answer (Option (List UInt8)) (List (List UInt8))) × List (List UInt8)
  | [] => ([], stack)
  | e :: rest =>
    let (answer, stack) := step own stack e
    let (answers, stack) := run own stack rest
    (answer :: answers, stack)

end Stack

/-- What the consumer gets shows what comes off the stack: a view the bytes of one frame, and views, group by group
in order, the bytes of one frame after the other. -/
inductive Shows : Answer (Except NetFailure (Option View)) (List View) →
    Answer (Option (List UInt8)) (List (List UInt8)) → Prop where
  | nothing : Shows .nothing .nothing
  | one (v? : Option View) : Shows (.one (.ok v?)) (.one (v?.map View.bytes))
  | all (groups : List (List View)) :
    Shows (.all groups.flatten) (.all (groups.map (·.flatMap View.bytes)))

/-! ## Nothing is refused -/

/-- Of what a frame of given bytes asks for, nothing is refused: a header for each segment, as many again for the
copy of a frame to everybody, and a place in the queue. -/
structure HasRoom (m : Memory) (budget : Nat) (own : Mac) (bytes : List UInt8) (cap : Nat) : Prop where
  headers : m.HasHeaders (pieces cap bytes).length
  copy : bytes.take 6 = Mac.broadcast.octets →
    m.HasHeaders ((pieces cap bytes).length + (pieces cap bytes).length)
  place : IsFor own bytes → m.Grants budget Queue.nodeNote Queue.nodeSize

instance (m : Memory) (budget : Nat) (own : Mac) (bytes : List UInt8) (cap : Nat) :
    Decidable (HasRoom m budget own bytes cap) :=
  decidable_of_iff (_ ∧ (_ → _) ∧ (_ → _))
    ⟨fun ⟨headers, copy, place⟩ => ⟨headers, copy, place⟩, fun h => ⟨h.headers, h.copy, h.place⟩⟩

/-- Memory refuses none of the requests that an event makes. A frame that is taken is copied into a block unless it
has one segment. -/
def Obliges (key : Nat) (plug : Plug) (n : Network) : Event → Prop
  | .arrive bytes cap => HasRoom n.memory (n.budgetOf key) plug.virtualMac bytes cap
  | .send bytes => HasRoom n.memory (n.budgetOf key) plug.virtualMac bytes Frame.largestSegment
  | .takeNext => ∀ f ∈ (n.plane.waiting plug).head?, f.segments.length ≠ 1 →
    (n.onQueue plug Queue.take?).2.memory.Grants (n.budgetOf key) Frame.compactNote f.length
  | .takeAll => True
  | .giveBack _ => True

instance (key : Nat) (plug : Plug) (n : Network) (e : Event) : Decidable (Obliges key plug n e) :=
  match e with
  | .arrive .. => inferInstanceAs (Decidable (HasRoom ..))
  | .send _ => inferInstanceAs (Decidable (HasRoom ..))
  | .takeNext => inferInstanceAs (Decidable (∀ f ∈ (n.plane.waiting plug).head?, _ → _))
  | .takeAll => .isTrue trivial
  | .giveBack _ => .isTrue trivial

/-- Memory refuses none of the requests that events make. -/
def ObligesAll (key : Nat) (plug : Plug) (n : Network) : List Event → Prop
  | [] => True
  | e :: rest => Obliges key plug n e ∧ ObligesAll key plug (step key plug n e).2 rest

instance decidableObligesAll (key : Nat) (plug : Plug) (n : Network) :
    (events : List Event) → Decidable (ObligesAll key plug n events)
  | [] => .isTrue trivial
  | _ :: rest => @instDecidableAnd _ _ _ (decidableObligesAll key plug _ rest)

/-! ## Whose frames are put on the stack -/

theorem destination?_eq_some_iff {bytes : List UInt8} {m : Mac} :
    Mac.destination? bytes = some m ↔ bytes.take 6 = m.octets :=
  Mac.ofOctets?_eq_some.trans eq_comm

theorem isFor_iff {own : Mac} {bytes : List UInt8} :
    IsFor own bytes ↔
      Mac.destination? bytes = some own ∨ Mac.destination? bytes = some Mac.broadcast := by
  rw [destination?_eq_some_iff, destination?_eq_some_iff]
  refine ⟨And.right, fun h => ⟨?_, h⟩⟩
  -- an address has six octets
  have hlength : (bytes.take 6).length = 6 := by
    rcases h with h | h
    · rw [h, own.length_octets]
    · rw [h, Mac.broadcast.length_octets]
  rw [List.length_take] at hlength
  omega

/-! ## A frame comes -/

/-- The host mirrors a stack: the splice is the only hook set, and the frames that wait at the plug have the bytes
on the stack. -/
structure Mirrors (key : Nat) (plug : Plug) (n : Network) (stack : List (List UInt8)) : Prop where
  wired : n.Wired key plug
  shown : n.bytesWaiting plug = stack

variable {key : Nat} {plug : Plug} {n n' : Network} {stack : List (List UInt8)}

/-- Neither the memory nor what arrived elsewhere has a part in it. -/
theorem Mirrors.of_same (h : Mirrors key plug n stack) (hsplices : n'.splices = n.splices)
    (hslot : n'.slot = n.slot) (hlines : n'.plane.lines = n.plane.lines) :
    Mirrors key plug n' stack where
  wired := h.wired.of_same hsplices hslot (by rw [hlines])
  shown := by
    rw [Network.bytesWaiting, Backplane.waiting_congr hlines]
    exact h.shown

/-- A frame for the consumer is put on the stack, and no other one is. -/
theorem Mirrors.intercept (h : Mirrors key plug n stack) {f : Frame}
    (hcopy : f.bytes.take 6 = Mac.broadcast.octets → n.memory.HasHeaders f.segments.length)
    (hplace : IsFor plug.virtualMac f.bytes →
      n.memory.Grants (n.budgetOf key) Queue.nodeNote Queue.nodeSize) :
    Mirrors key plug (n.intercept key plug.index (.last f)).2
      (Stack.push plug.virtualMac f.bytes stack) := by
  obtain ⟨hsplices, hslot, hlines⟩ := h.wired.toPlugged.intercept_same (.last f)
  refine ⟨h.wired.of_same hsplices hslot hlines, ?_⟩
  have hlined := h.wired.lined
  rw [Stack.push, ← h.shown]
  -- for everybody, for the consumer alone, for somebody else or too short
  rcases h.wired.toPlugged.intercept_cases (.last f) with ⟨hall, heq⟩ | ⟨hown, -, heq⟩ | ⟨hown, hall, heq⟩
  · change f.destination? = _ at hall
    rw [f.destination?_eq] at hall
    have hfor : IsFor plug.virtualMac f.bytes := isFor_iff.2 (.inr hall)
    have hheaders := hcopy (destination?_eq_some_iff.1 hall)
    rw [heq, if_pos hfor]
    show List.map Frame.bytes ((Network.queueCopy _ _ _ f).waiting plug) = _
    rw [Backplane.waiting_queueCopy_granted hlined hheaders (hplace hfor)]
    rfl
  · change f.destination? = _ at hown
    rw [f.destination?_eq] at hown
    have hfor := isFor_iff.2 (.inl hown)
    have hgrants : n.plane.memory.Grants _ _ _ := hplace hfor
    rw [heq, if_pos hfor, Network.bytesWaiting, Backplane.waiting_queueWhole hlined, if_pos hgrants]
    rfl
  · change f.destination? ≠ _ at hown hall
    rw [f.destination?_eq] at hown hall
    have hother : ¬IsFor plug.virtualMac f.bytes := mt isFor_iff.1 (not_or.2 ⟨hown, hall⟩)
    rw [heq, if_neg hother]

/-- Whatever reaches the host's stack is no more of the consumer's business. -/
theorem Mirrors.receive (h : Mirrors key plug n stack) {f : Frame}
    (hcopy : f.bytes.take 6 = Mac.broadcast.octets → n.memory.HasHeaders f.segments.length)
    (hplace : IsFor plug.virtualMac f.bytes →
      n.memory.Grants (n.budgetOf key) Queue.nodeNote Queue.nodeSize) :
    Mirrors key plug (n.receive plug.index (.last f)) (Stack.push plug.virtualMac f.bytes stack) := by
  -- the mark on the frame is none of its bytes
  have hnext := h.intercept (f := { f with receivedOn := some plug.index }) hcopy hplace
  cases hoffered : n.intercept key plug.index (.last { f with receivedOn := some plug.index }) with
  | mk chain? n₁ =>
    rw [hoffered] at hnext
    cases chain? with
    | none =>
      rw [Network.receive_of_stopped h.wired.slot h.wired.only hoffered]
      exact hnext
    | some c =>
      rw [Network.receive_of_passed h.wired.slot h.wired.only hoffered]
      exact hnext.of_same rfl rfl rfl

/-- A frame is made, and there is room left for all that it asks for. -/
theorem HasRoom.make {m : Memory} {budget : Nat} {own : Mac} {bytes : List UInt8} {cap : Nat}
    (h : HasRoom m budget own bytes cap) (receivedOn : Option Nat) :
    ∃ f m', Frame.ofBytes m bytes cap receivedOn = (some f, m') ∧ f.bytes = bytes ∧
      (f.bytes.take 6 = Mac.broadcast.octets → m'.HasHeaders f.segments.length) ∧
      (IsFor own f.bytes → m'.Grants budget Queue.nodeNote Queue.nodeSize) := by
  -- a frame for everybody leaves as many headers behind as its copy needs
  by_cases hall : bytes.take 6 = Mac.broadcast.octets
  · obtain ⟨f, m', heq, rfl, hlength, hspare, hsame⟩ :=
      Frame.ofBytes_granted bytes cap receivedOn (h.copy hall)
    refine ⟨f, m', heq, rfl, fun _ => ?_, fun hfor => hsame.grants (h.place hfor)⟩
    rw [hlength]
    exact hspare
  · have hheaders : m.HasHeaders ((pieces cap bytes).length + 0) := h.headers
    obtain ⟨f, m', heq, rfl, -, -, hsame⟩ := Frame.ofBytes_granted bytes cap receivedOn hheaders
    exact ⟨f, m', heq, rfl, fun h => absurd h hall, fun hfor => hsame.grants (h.place hfor)⟩

theorem Mirrors.arrive (h : Mirrors key plug n stack) {bytes : List UInt8} {cap : Nat}
    (hroom : HasRoom n.memory (n.budgetOf key) plug.virtualMac bytes cap) :
    Mirrors key plug (n.inject plug.index bytes cap) (Stack.push plug.virtualMac bytes stack) := by
  obtain ⟨f, m, heq, rfl, hcopy, hplace⟩ := hroom.make (some plug.index)
  have hmade : Mirrors key plug (n.setMemory m) stack := h.of_same rfl rfl rfl
  unfold Network.inject Network.onMemory
  dsimp only
  rw [heq]
  exact hmade.receive hcopy hplace

theorem Mirrors.send (h : Mirrors key plug n stack) {bytes : List UInt8}
    (hroom : HasRoom n.memory (n.budgetOf key) plug.virtualMac bytes Frame.largestSegment) :
    Mirrors key plug (n.send plug.index bytes).2 (Stack.push plug.virtualMac bytes stack) := by
  obtain ⟨f, m, heq, rfl, hcopy, hplace⟩ := hroom.make none
  have hmade : Mirrors key plug (n.setMemory m) stack := h.of_same rfl rfl rfl
  have hnext := hmade.intercept hcopy hplace
  unfold Network.send Network.onMemory
  dsimp only
  rw [heq]
  dsimp only
  rw [Network.path_eq hmade.wired.slot hmade.wired.only, Network.offerOutput_splice]
  cases hi : (n.setMemory m).intercept key plug.index (.last f) with
  | mk chain? n₁ =>
    rw [hi] at hnext
    cases chain? with
    | none => exact hnext
    | some c => exact hnext.of_same rfl rfl rfl

/-! ## The consumer takes -/

/-- What is left at the plug after its queue was worked on. -/
theorem Mirrors.onQueue {α : Type} (h : Mirrors key plug n stack)
    (f : Queue → Memory → α × Queue × Memory) :
    Mirrors key plug (n.onQueue plug f).2
      ((f (n.plane.line plug).queue n.memory).2.1.frames.map Frame.bytes) where
  wired := h.wired.of_same rfl rfl (Backplane.size_onQueue f)
  shown := congrArg (List.map Frame.bytes) (Backplane.waiting_onQueue h.wired.lined)

theorem flatMap_bytes_view (f : Frame) : (f.segments.map Segment.view).flatMap View.bytes = f.bytes :=
  List.flatMap_map Segment.view View.bytes f.segments

/-- All that waits comes off, each frame as the views of its segments. -/
theorem Mirrors.takeAll (h : Mirrors key plug n stack) :
    Shows (.all (n.takeAll key plug.id).1) (.all stack) ∧
      Mirrors key plug (n.takeAll key plug.id).2 [] := by
  have hleft := h.onQueue Queue.drain
  rw [((n.plane.line plug).queue.frames_drain n.memory).2] at hleft
  -- the group of a frame is the views of its segments
  have hgroups : ((n.plane.waiting plug).map fun f => f.segments.map Segment.view).map
      (·.flatMap View.bytes) = stack := by
    rw [List.map_map, ← h.shown]
    exact List.map_congr_left fun f _ => flatMap_bytes_view f
  constructor
  · rw [Network.views_takeAll h.wired.named, ← hgroups]
    exact .all _
  · unfold Network.takeAll
    rw [h.wired.named]
    exact hleft.of_same rfl rfl rfl

/-- The frame in front comes off, as it stands or in a block of its own. -/
theorem Mirrors.takeNext (h : Mirrors key plug n stack) (hobliges : Obliges key plug n .takeNext) :
    Shows (.one (n.takeNext key plug.id).1) (.one stack.head?) ∧
      Mirrors key plug (n.takeNext key plug.id).2 stack.tail := by
  obtain ⟨hfirst, hrest⟩ := (n.plane.line plug).queue.frames_take? n.memory
  have hleft := h.onQueue Queue.take?
  rw [hrest, List.map_tail] at hleft
  change (n.onQueue plug Queue.take?).1 = (n.plane.waiting plug).head? at hfirst
  change Mirrors key plug _ ((n.plane.waiting plug).map Frame.bytes).tail at hleft
  unfold Network.takeNext
  rw [h.wired.named]
  dsimp only
  cases htake : n.onQueue plug Queue.take? with
  | mk f? n₁ =>
    rw [htake] at hfirst hleft
    rw [← h.shown, Network.bytesWaiting, List.head?_map, ← hfirst]
    cases f? with
    | none => exact ⟨.one none, hleft⟩
    | some f =>
      dsimp only
      split
      · rename_i segment hsegments
        have hbytes : segment.view.bytes = f.bytes := by
          rw [Frame.bytes, hsegments, List.flatMap_singleton]
          rfl
        refine ⟨?_, hleft.of_same rfl rfl rfl⟩
        rw [Option.map_some, ← hbytes]
        exact .one (some segment.view)
      · rename_i hmany
        -- neither no segment nor several, so a block is asked for
        have hlength : f.segments.length ≠ 1 := by
          intro hone
          obtain ⟨segment, hsegment⟩ := List.length_eq_one_iff.1 hone
          exact hmany segment hsegment
        have hgrants := hobliges f hfirst.symm hlength
        have hbudget : n₁.budgetOf key = n.budgetOf key := by
          rw [show n₁ = (n.onQueue plug Queue.take?).2 by rw [htake]]
          rfl
        rw [htake, ← hbudget] at hgrants
        obtain ⟨v, m, heq, hbytes⟩ := Frame.compact_granted hgrants
        unfold Network.onMemory
        dsimp only
        rw [heq]
        refine ⟨?_, hleft.of_same rfl rfl rfl⟩
        rw [Option.map_some, ← hbytes]
        exact .one (some v)

/-! ## Events and runs -/

/-- **An event on the host is the event on the stack.** -/
theorem step_shows (h : Mirrors key plug n stack) (e : Event) (hobliges : Obliges key plug n e) :
    Shows (step key plug n e).1 (Stack.step plug.virtualMac stack e).1 ∧
      Mirrors key plug (step key plug n e).2 (Stack.step plug.virtualMac stack e).2 := by
  cases e with
  | arrive bytes cap => exact ⟨.nothing, h.arrive hobliges⟩
  | send bytes => exact ⟨.nothing, h.send hobliges⟩
  | takeNext => exact h.takeNext hobliges
  | takeAll => exact h.takeAll
  | giveBack v => exact ⟨.nothing, h.of_same rfl rfl rfl⟩

theorem run_shows (h : Mirrors key plug n stack) (events : List Event)
    (hobliges : ObligesAll key plug n events) :
    List.Forall₂ Shows (run key plug n events).1 (Stack.run plug.virtualMac stack events).1 ∧
      Mirrors key plug (run key plug n events).2 (Stack.run plug.virtualMac stack events).2 := by
  -- on the events: the host that one leaves mirrors the stack that it leaves
  induction events generalizing n stack with
  | nil => exact ⟨.nil, h⟩
  | cons e rest ih =>
    obtain ⟨hfirst, hrest⟩ := hobliges
    obtain ⟨hshows, hnext⟩ := step_shows h e hfirst
    obtain ⟨hmore, hend⟩ := ih hnext hrest
    exact ⟨.cons hshows hmore, hend⟩

/-! ## Every frame once -/

/-- The bytes of a frame that comes. -/
def Event.frame? : Event → Option (List UInt8)
  | .arrive bytes _ => some bytes
  | .send bytes => some bytes
  | .takeNext | .takeAll | .giveBack _ => none

/-- The frames for the consumer among those that come, the newest first. -/
def offered (own : Mac) (events : List Event) : List (List UInt8) :=
  ((events.filterMap Event.frame?).filter (IsFor own)).reverse

/-- The frames that come off the stack with an answer. -/
def Answer.frames : Answer (Option (List UInt8)) (List (List UInt8)) → List (List UInt8)
  | .nothing => []
  | .one bytes? => bytes?.toList
  | .all frames => frames

theorem offered_cons (own : Mac) (e : Event) (rest : List Event) :
    offered own (e :: rest) = offered own rest ++ offered own [e] := by
  rw [offered, offered, offered, ← List.reverse_append, ← List.filter_append, ← List.filterMap_append]
  rfl

/-- What an event leaves and what comes off with it is what was there and the frame that came. -/
theorem Stack.step_perm (own : Mac) (stack : List (List UInt8)) (e : Event) :
    ((Stack.step own stack e).1.frames ++ (Stack.step own stack e).2).Perm
      (offered own [e] ++ stack) := by
  have hpush (bytes : List UInt8) : ([bytes].filter (IsFor own)).reverse ++ stack =
      Stack.push own bytes stack := by
    unfold Stack.push
    split
    · rename_i h
      rw [List.filter_singleton, decide_eq_true h]
      rfl
    · rename_i h
      rw [List.filter_singleton, decide_eq_false h]
      rfl
  cases e with
  | arrive bytes cap => exact .of_eq (hpush bytes).symm
  | send bytes => exact .of_eq (hpush bytes).symm
  | takeNext =>
    cases stack with
    | nil => exact .refl _
    | cons top rest => exact .refl _
  | takeAll => exact .of_eq (List.append_nil stack)
  | giveBack v => exact .refl _

/-- What comes off the stack and what is left on it are the frames for the consumer, each as often as it came. -/
theorem Stack.run_perm (own : Mac) (stack : List (List UInt8)) (events : List Event) :
    ((Stack.run own stack events).1.flatMap Answer.frames ++ (Stack.run own stack events).2).Perm
      (offered own events ++ stack) := by
  -- on the events: what came off first is moved past what came later
  induction events generalizing stack with
  | nil => exact .refl _
  | cons e rest ih =>
    have hstep := Stack.step_perm own stack e
    rw [offered_cons, List.append_assoc]
    refine .trans ?_ (hstep.append_left _)
    refine .trans ?_ (List.perm_append_comm_assoc _ _ _)
    show (((Stack.step own stack e).1.frames ++ _) ++ _).Perm _
    rw [List.append_assoc]
    exact (ih _).append_left _

/-- Nothing comes off an empty stack. -/
theorem Mirrors.takeAll_nil (h : Mirrors key plug n []) : (n.takeAll key plug.id).1 = [] := by
  generalize hviews : (n.takeAll key plug.id).1 = views
  obtain ⟨hshows, -⟩ := h.takeAll
  rw [hviews] at hshows
  generalize hframes : ([] : List (List UInt8)) = frames at hshows
  cases hshows with
  | all groups =>
    rw [List.map_eq_nil_iff.1 hframes.symm]
    rfl

/-- **What waits for a consumer is a stack.** Take a host after any run of acts, with a splice for its only hook set,
and a plug of this splice. As long as memory refuses nothing, the consumer of the plug gets what comes off a stack of
byte strings on which the frames for it are put and no others, and what is left waits. So each of these frames is
handed over just once, and there is nothing to take behind a consumer that took all. -/
theorem run_is_stack (limit : Option Nat) (turns : List Turn) {key : Nat} {plug : Plug}
    (hslot : ((Scene.start limit).run turns).network.slot = some (.splice key))
    (honly : ((Scene.start limit).run turns).network.previous? key = none)
    (hplug : plug ∈ (((Scene.start limit).run turns).network.registry key).plugs)
    (events : List Event)
    (hobliges : ObligesAll key plug ((Scene.start limit).run turns).network events) :
    let n := ((Scene.start limit).run turns).network
    let host := run key plug n events
    let stack := Stack.run plug.virtualMac (n.bytesWaiting plug) events
    List.Forall₂ Shows host.1 stack.1 ∧ host.2.bytesWaiting plug = stack.2 ∧
    (stack.1.flatMap Answer.frames ++ host.2.bytesWaiting plug).Perm
      (offered plug.virtualMac events ++ n.bytesWaiting plug) ∧
    ((host.2.takeAll key plug.id).2.takeAll key plug.id).1 = [] := by
  intro n host stack
  obtain ⟨h, hs⟩ := Scene.settled_run limit turns
  have hnamed := (Network.Settled.registry_sound hs key).byId? hplug
  have hstart : Mirrors key plug n (n.bytesWaiting plug) :=
    ⟨⟨Network.Settled.plugged hs hplug, hnamed, hslot, honly⟩, rfl⟩
  obtain ⟨hshows, hend⟩ := run_shows hstart events hobliges
  have hleft : host.2.bytesWaiting plug = stack.2 := hend.shown
  refine ⟨hshows, hleft, ?_, hend.takeAll.2.takeAll_nil⟩
  rw [hleft]
  exact Stack.run_perm _ _ events

/-- Frames in one segment and in several, for the consumer, for everybody and too short for anybody. -/
theorem run_is_stack_mixed :
    let own : Mac := ⟨[2, 0, 0, 0, 0, 1], rfl⟩
    let n := ((Scene.start none).run (Scene.setUp own)).network
    let plug := Plug.ofSetUp own
    let events : List Event :=
      [.arrive [2, 0, 0, 0, 0, 1, 7, 8, 9] 4, .send [255, 255, 255, 255, 255, 255, 5], .arrive [1, 2] 0,
        .takeNext, .takeNext, .arrive [255, 255, 255, 255, 255, 255] 0, .takeAll, .takeAll]
    n.slot = some (.splice 0) ∧ n.previous? 0 = none ∧ plug ∈ (n.registry 0).plugs ∧
      ObligesAll 0 plug n events ∧
      List.Forall₂ Shows (run 0 plug n events).1
        [.nothing, .nothing, .nothing, .one (some [255, 255, 255, 255, 255, 255, 5]),
          .one (some [2, 0, 0, 0, 0, 1, 7, 8, 9]), .nothing, .all [[255, 255, 255, 255, 255, 255]],
          .all []] := by
  intro own n plug events
  have hslot : n.slot = some (.splice 0) := rfl
  have honly : n.previous? 0 = none := rfl
  have hplug : plug ∈ (n.registry 0).plugs := by decide +kernel
  have hobliges : ObligesAll 0 plug n events := by decide +kernel
  obtain ⟨hshows, -⟩ := run_is_stack none (Scene.setUp own) hslot honly hplug events hobliges
  refine ⟨hslot, honly, hplug, hobliges, ?_⟩
  convert hshows using 1
  decide +kernel

end Inbox

end Patchbay
