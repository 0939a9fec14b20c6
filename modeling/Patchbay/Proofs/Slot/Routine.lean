import Patchbay.Proofs.Estate.Scene

/-!
# `Proofs.Slot.Routine` — what goes on beside the slot

Traffic, memory and queues touch neither the slot, nor the splices, nor the interface table. All that they do comes
down to a few steps: memory changes, something arrives, a queue is worked on, a line counts. Chains are put only on the
lines of plugs that a registry lists.

## Contents
* `Network.Beside` — slot and splices are the same;
* `Network.Routine` — these steps, one after the other; `Routine.beside`, `Routine.table_eq`, `Routine.waits`;
* `Network.ListsOnly.offerInput`, `Network.routine_takeAll` and their kin — what traffic and consumers do is routine;
* `Scene.routine_queue` and its kin — and so are most acts.
-/

namespace Patchbay

/-! ## What waits on lines -/

/-- An operation that puts nothing on an empty queue. -/
def Queue.Drains {α : Type} (f : Queue → Memory → α × Queue × Memory) : Prop :=
  ∀ q m, q.nodes = [] → (f q m).2.1.nodes = []

namespace Queue

/-- To take a frame puts nothing on an empty queue. -/
theorem drains_take? : Drains take? := by
  intro q m hempty
  unfold take?
  rw [hempty]
  exact hempty

/-- Nor does a drain. -/
theorem drains_drain : Drains drain := fun _ _ _ => rfl

theorem drains_clear : Drains clear := fun _ _ _ => rfl

theorem drains_countDrop : Drains fun q m => ((), q.countDrop, m) := fun _ _ hempty => hempty

end Queue

namespace Backplane

variable {p : Backplane} {plug : Plug} {key : Nat}

/-- Something waits on a line. -/
def Waits (p : Backplane) (key : Nat) : Prop := (p.lines.getD key {}).queue.nodes ≠ []

/-- What a line counts beside its queue. -/
def recount (p : Backplane) (plug : Plug) (warnings holders : Nat) : Backplane :=
  p.setLine plug { p.line plug with mtuWarnings := warnings, holders := holders }

/-- On a line that is put in the place of another one waits what waits in its queue. -/
theorem waits_setLine {line : Line} (h : (p.setLine plug line).Waits key) :
    if key = plug.key then line.queue.nodes ≠ [] else p.Waits key := by
  rw [Waits, setLine, Array.getD_eq_getD_getElem?, Array.getElem?_setIfInBounds] at h
  by_cases heq : plug.key = key
  · rw [if_pos heq] at h
    rw [if_pos heq.symm]
    split at h
    · exact h
    · exact absurd rfl h
  · rw [if_neg heq, ← Array.getD_eq_getD_getElem?] at h
    rw [if_neg (Ne.symm heq)]
    exact h

/-- The figures of a line have no part in what waits. -/
theorem waits_recount {warnings holders : Nat} (h : (p.recount plug warnings holders).Waits key) : p.Waits key := by
  have hwaits := waits_setLine h
  split at hwaits
  · rename_i heq
    rw [heq]
    exact hwaits
  · exact hwaits

/-- An operation on a queue leaves all other lines alone. -/
theorem waits_onQueue {α : Type} {f : Queue → Memory → α × Queue × Memory} (h : (p.onQueue plug f).2.Waits key) :
    if key = plug.key then (f (p.line plug).queue p.memory).2.1.nodes ≠ [] else p.Waits key := by
  have hset : (p.setLine plug { p.line plug with queue := (f (p.line plug).queue p.memory).2.1 }).Waits key := h
  exact waits_setLine hset

/-- So it fills none but this one. -/
theorem waits_or_fills {α : Type} {f : Queue → Memory → α × Queue × Memory} (h : (p.onQueue plug f).2.Waits key) :
    p.Waits key ∨ key = plug.key ∧ ¬ Queue.Drains f := by
  have hwaits := waits_onQueue h
  split at hwaits
  · rename_i heq
    subst heq
    by_cases hempty : (p.line plug).queue.nodes = []
    · exact .inr ⟨rfl, fun hdrains => hwaits (hdrains _ _ hempty)⟩
    · exact .inl hempty
  · exact .inl hwaits

/-- Nothing waits on a line that is cleared. -/
theorem waits_clear (h : (p.onQueue plug Queue.clear).2.Waits key) : key ≠ plug.key ∧ p.Waits key := by
  have hwaits := waits_onQueue h
  split at hwaits
  · exact absurd rfl hwaits
  · rename_i hne
    exact ⟨hne, hwaits⟩

end Backplane

namespace Network

/-! ## Routine steps -/

/-- The slot and the splices are the same. -/
structure Beside (n n' : Network) : Prop where
  splices : n'.splices = n.splices
  slot : n'.slot = n.slot

variable {n n' n'' : Network} {lines : Nat → Prop}

theorem Beside.trans (h : n.Beside n') (h' : n'.Beside n'') : n.Beside n'' :=
  ⟨h'.splices.trans h.splices, h'.slot.trans h.slot⟩

/-- The same splices list the same. -/
theorem Beside.registry_eq (h : n.Beside n') (key : Nat) : n'.registry key = n.registry key := by
  rw [registry, registry, h.splices]

/-- Registries list only plugs with such lines. -/
def ListsOnly (n : Network) (lines : Nat → Prop) : Prop :=
  ∀ key, ∀ plug ∈ (n.registry key).plugs, lines plug.key

/-- Any lines are among all lines. -/
theorem listsOnly_true (n : Network) : n.ListsOnly fun _ => True := fun _ _ _ => trivial

/-- What the splices list does not change while they are the same. -/
theorem ListsOnly.beside (h : n.ListsOnly lines) (hs : n.Beside n') : n'.ListsOnly lines := by
  intro key
  rw [hs.registry_eq]
  exact h key

/-- Steps that touch neither slot, nor splices, nor table, and put chains on such lines only. -/
inductive Routine (lines : Nat → Prop) : Network → Network → Prop where
  | refl (n : Network) : Routine lines n n
  | memory (n : Network) (m : Memory) : Routine lines n (n.setMemory m)
  | arrival (n : Network) (stack wire : Array Delivery) (calls : Array HookCall) :
    Routine lines n { n with stack := stack, wire := wire, calls := calls }
  | queue {α : Type} (n : Network) (plug : Plug) (f : Queue → Memory → α × Queue × Memory)
    (h : Queue.Drains f ∨ lines plug.key) : Routine lines n (n.onQueue plug f).2
  | recount (n : Network) (plug : Plug) (warnings holders : Nat) :
    Routine lines n { n with plane := n.plane.recount plug warnings holders }
  | trans {n n' n'' : Network} (h : Routine lines n n') (h' : Routine lines n' n'') : Routine lines n n''

namespace Routine

/-- On routine steps slot and splices are the same. -/
theorem beside (h : n.Routine lines n') : n.Beside n' := by
  induction h with
  | trans _ _ ih ih' => exact ih.trans ih'
  | _ => exact ⟨rfl, rfl⟩

/-- Nor do they touch the table. -/
theorem table_eq (h : n.Routine lines n') : n'.plane.table = n.plane.table := by
  induction h with
  | trans _ _ ih ih' => exact ih'.trans ih
  | _ => rfl

/-- What waits has waited before, or is on a line of this kind. -/
theorem waits (h : n.Routine lines n') {key : Nat} (hwaits : n'.plane.Waits key) : n.plane.Waits key ∨ lines key := by
  induction h with
  | refl n => exact .inl hwaits
  | memory n m => exact .inl hwaits
  | arrival n stack wire calls => exact .inl hwaits
  | queue n plug f h =>
    rcases Backplane.waits_or_fills hwaits with hold | ⟨rfl, hfills⟩
    · exact .inl hold
    · exact .inr (h.resolve_left hfills)
  | recount n plug warnings holders => exact .inl (Backplane.waits_recount hwaits)
  | trans _ _ ih ih' =>
    rcases ih' hwaits with hmid | hline
    · exact ih hmid
    · exact .inr hline

theorem listsOnly (h : n.Routine lines n') (hl : n.ListsOnly lines) : n'.ListsOnly lines := hl.beside h.beside

end Routine

/-! ## Traffic -/

theorem routine_note (n : Network) (call : HookCall) : n.Routine lines (n.note call) :=
  .arrival n n.stack n.wire (n.calls.push call)

theorem routine_releaseChain (n : Network) (c : Chain) : n.Routine lines (n.releaseChain c) :=
  .memory n (n.memory.releaseChain c)

/-- An operation on the queue of a line that may fill up is routine. -/
theorem routine_onQueue {α : Type} (n : Network) (plug : Plug) (f : Queue → Memory → α × Queue × Memory)
    (hline : lines plug.key) : n.Routine lines { n with plane := (n.plane.onQueue plug f).2 } :=
  .queue n plug f (.inr hline)

/-- A copy is work on a queue, whether it can be made or not. -/
theorem queueCopy_eq (p : Backplane) (plug : Plug) (budget : Nat) (f : Frame) :
    queueCopy p plug budget f = (p.onQueue plug fun q m =>
      match f.copy m with
      | (none, m) => ((), q.countDrop, m)
      | (some copy, m) => ((), (q.push m budget (.last copy)).2)).2 :=
  rfl

/-- A splice fills up only lines that it lists. -/
theorem ListsOnly.intercept (h : n.ListsOnly lines) (key index : Nat) (c : Chain) :
    n.Routine lines (n.intercept key index c).2 := by
  unfold Network.intercept
  dsimp only
  split
  · exact .refl n
  split
  · exact .refl n
  · -- the splice lists the plug
    rename_i plug hplug
    have hline := h key plug (List.mem_of_find?_eq_some hplug)
    split
    · exact .refl n
    split
    · exact .refl n
    · exact n.routine_onQueue plug (fun q m => q.push m (n.budgetOf key) c) hline
    · rw [queueCopy_eq]
      exact n.routine_onQueue plug _ hline

/-- So do all hooks that a frame meets on its way in. -/
theorem ListsOnly.offerInput (h : n.ListsOnly lines) (index : Nat) (c : Chain) (hooks : List Hook) :
    n.Routine lines (n.offerInput index c hooks).2 := by
  -- on the hooks: what one hands on is offered to the next
  induction hooks generalizing n c with
  | nil => exact .refl n
  | cons hook rest ih =>
    cases hook with
    | foreign hooks =>
      unfold Network.offerInput
      dsimp only
      split
      · exact n.routine_note _
      · exact (n.routine_note _).trans (routine_releaseChain _ c)
    | splice key =>
      have hstep := h.intercept key index c
      unfold Network.offerInput
      cases hi : n.intercept key index c with
      | mk chain? n₁ =>
        rw [hi] at hstep
        cases chain? with
        | none => exact hstep
        | some c => exact hstep.trans (ih (hstep.listsOnly h) c)

/-- And on its way out. -/
theorem ListsOnly.offerOutput (h : n.ListsOnly lines) (index : Nat) (c : Chain) (hooks : List Hook) :
    n.Routine lines (n.offerOutput index c hooks).2 := by
  induction hooks generalizing n c with
  | nil => exact .refl n
  | cons hook rest ih =>
    cases hook with
    | foreign hooks =>
      unfold Network.offerOutput
      dsimp only
      split
      · exact (n.routine_note _).trans (routine_releaseChain _ c)
      · exact n.routine_note _
      · exact (n.routine_note _).trans (routine_releaseChain _ c)
    | splice key =>
      have hstep := h.intercept key index c
      unfold Network.offerOutput
      cases hi : n.intercept key index c with
      | mk chain? n₁ =>
        rw [hi] at hstep
        cases chain? with
        | none => exact hstep
        | some c => exact hstep.trans (ih (hstep.listsOnly h) c)

theorem routine_offerOrphan (n : Network) (index : Nat) (c : Chain) (hooks : List Hook) :
    n.Routine lines (n.offerOrphan index c hooks) := by
  induction hooks with
  | nil => exact n.routine_releaseChain c
  | cons hook rest ih =>
    cases hook with
    | foreign h => exact (n.routine_note _).trans (routine_releaseChain _ c)
    | splice key => exact ih

theorem routine_announce (n : Network) (call : String → HookCall) (hooks : List Hook) :
    n.Routine lines (n.announce call hooks) := by
  induction hooks with
  | nil => exact .refl n
  | cons hook rest ih =>
    cases hook with
    | foreign h => exact n.routine_note _
    | splice key => exact ih

theorem routine_reachStack (n : Network) (index : Nat) (c : Chain) : n.Routine lines (n.reachStack index c) :=
  .trans (.arrival n (n.stack ++ (Delivery.ofChain index c).toArray) n.wire n.calls) (routine_releaseChain _ c)

theorem routine_transmit (n : Network) (index : Nat) (c : Chain) : n.Routine lines (n.transmit index c) :=
  .trans (.arrival n n.stack (n.wire ++ (Delivery.ofChain index c).toArray) n.calls) (routine_releaseChain _ c)

/-- To receive a frame is routine. -/
theorem ListsOnly.receive (h : n.ListsOnly lines) (index : Nat) (c : Chain) :
    n.Routine lines (n.receive index c) := by
  have hoffer := h.offerInput index (c.setHead { c.head with receivedOn := some index }) n.path
  unfold Network.receive
  dsimp only
  cases ho : n.offerInput index (c.setHead { c.head with receivedOn := some index }) n.path with
  | mk chain? n₁ =>
    rw [ho] at hoffer
    cases chain? with
    | none => exact hoffer
    | some c => exact hoffer.trans (n₁.routine_reachStack index c)

theorem ListsOnly.inject (h : n.ListsOnly lines) (index : Nat) (bytes : List UInt8) (cap : Nat) :
    n.Routine lines (n.inject index bytes cap) := by
  have hmake : n.Routine lines (n.onMemory fun m => Frame.ofBytes m bytes cap (some index)).2 := .memory n _
  unfold Network.inject
  split <;> rename_i heq <;> rw [heq] at hmake
  · exact hmake
  · exact hmake.trans ((hmake.listsOnly h).receive index _)

/-- So is to send one. -/
theorem ListsOnly.send (h : n.ListsOnly lines) (index : Nat) (bytes : List UInt8) :
    n.Routine lines (n.send index bytes).2 := by
  have hmake : n.Routine lines (n.onMemory fun m => Frame.ofBytes m bytes Frame.largestSegment none).2 := .memory n _
  unfold Network.send
  split <;> rename_i heq <;> rw [heq] at hmake
  · exact hmake
  · rename_i f n₁
    have hoffer := hmake.trans ((hmake.listsOnly h).offerOutput index (.last f) n₁.path)
    split <;> rename_i heq <;> rw [heq] at hoffer
    · exact hoffer
    · exact hoffer
    · exact hoffer.trans (routine_transmit _ index _)

/-! ## What consumers ask for -/

/-- What a consumer takes leaves its queue, and fills up none. -/
theorem routine_takeAll (n : Network) (key id : Nat) : n.Routine lines (n.takeAll key id).2 := by
  unfold takeAll
  split
  · exact .refl n
  · rename_i plug _
    exact .trans (.queue n plug Queue.drain (.inl Queue.drains_drain)) (.memory _ _)

/-- So it is when it takes one frame. -/
theorem routine_takeNext (n : Network) (key id : Nat) : n.Routine lines (n.takeNext key id).2 := by
  unfold takeNext
  split
  · exact .refl n
  · rename_i plug _
    have htake : n.Routine lines (n.onQueue plug Queue.take?).2 := .queue n plug _ (.inl Queue.drains_take?)
    split <;> rename_i heq <;> rw [heq] at htake
    · exact htake
    · -- handed over as it stands, or copied; the copy may be refused
      refine htake.trans ?_
      split
      · exact .memory _ _
      · dsimp only
        split <;> exact .trans (.memory _ _) (.memory _ _)

theorem routine_warnOfLength (n : Network) (plug : Plug) (length : Nat) :
    n.Routine lines (n.warnOfLength plug length) := by
  unfold warnOfLength
  split
  · exact .refl n
  split
  · exact .recount n plug _ (n.plane.line plug).holders
  · exact .refl n

/-- What it sends may come back on lines that are listed, for everybody or for the interface itself. -/
theorem ListsOnly.submit (h : n.ListsOnly lines) (key id : Nat) (buffers : List View) :
    n.Routine lines (n.submit key id buffers).2 := by
  unfold Network.submit
  split
  · exact .refl n
  · rename_i plug _
    have hmake : n.Routine lines (n.onMemory fun m => Frame.ofBuffers m buffers (some plug.index)).2 := .memory n _
    split <;> rename_i heq <;> rw [heq] at hmake
    · exact hmake
    · rename_i f n₁
      refine hmake.trans ?_
      split
      · exact .memory _ _
      · have hwarn : n₁.Routine lines (n₁.warnOfLength plug f.length) := n₁.routine_warnOfLength plug f.length
        have hlists := hwarn.listsOnly (hmake.listsOnly h)
        refine hwarn.trans ?_
        dsimp only
        generalize n₁.warnOfLength plug f.length = n₂ at hlists
        split
        · have hcopy : n₂.Routine lines (n₂.onMemory fun m => f.copy m).2 := .memory n₂ _
          split <;> rename_i heq <;> rw [heq] at hcopy
          · exact hcopy.trans (.memory _ _)
          · exact hcopy.trans (((hcopy.listsOnly hlists).receive plug.index _).trans (routine_transmit _ plug.index _))
        split
        · exact hlists.receive plug.index (.last f)
        · exact n₂.routine_transmit plug.index (.last f)

theorem routine_memoryFor (n : Network) (key : Nat) (kind : Budget.Kind) (size : Nat) :
    n.Routine lines (n.memoryFor key kind size).2 :=
  .memory n _

theorem routine_pages (n : Network) (key count : Nat) : n.Routine lines (n.pages key count).2 := by
  unfold pages
  split
  · exact n.routine_memoryFor key _ _
  · exact .refl n

theorem routine_bufferOf (n : Network) (key : Nat) (bytes : List UInt8) :
    n.Routine lines (n.bufferOf key bytes).2 := by
  have hbuffer : n.Routine lines (n.buffer key bytes.length).2 := n.routine_memoryFor key _ _
  unfold bufferOf
  split <;> rename_i heq <;> rw [heq] at hbuffer
  · exact hbuffer
  · exact hbuffer.trans (.memory _ _)

theorem routine_holdPlug (n : Network) (plug : Plug) :
    n.Routine lines { n with plane := n.plane.holdPlug plug } :=
  .recount n plug (n.plane.line plug).mtuWarnings _

/-- The last holder of a plug empties its queue. -/
theorem routine_dropPlug (n : Network) (plug : Plug) :
    n.Routine lines { n with plane := n.plane.dropPlug plug } := by
  have hfirst : n.Routine lines { n with plane := _ } :=
    .recount n plug (n.plane.line plug).mtuWarnings ((n.plane.line plug).holders - 1)
  unfold Backplane.dropPlug
  dsimp only
  split
  · -- with the last holder its queue is cleared and its record goes
    refine hfirst.trans (.trans (.queue _ plug (fun q m => ((), (q.clear m).2)) (.inl fun _ _ _ => rfl)) ?_)
    exact .memory _ _
  · exact hfirst

end Network

/-! ## Acts -/

namespace Act

/-- The acts by which hooks come and go. -/
def handlesHooks : Act → Bool
  | .host (.exchangeHook _) => true
  | .host (.putHook _) => true
  | .host (.unlink _) => true
  | .splice (.start _) => true
  | .splice (.add _) => true
  | .splice (.tellPrevious ..) => true
  | .splice (.hold _) => true
  | .splice (.drop _) => true
  | .splice (.tearDown _) => true
  | _ => false

/-- The acts that write the interface table, other than by the end of a splice. -/
def writesTable : Act → Bool
  | .host (.addInterface ..) => true
  | .host (.changeTable _) => true
  | .splice (.plug ..) => true
  | .splice (.unplug ..) => true
  | .splice (.unplugEverything _) => true
  | _ => false

/-- An act puts chains by hand only on such lines. -/
def FillsOnly (lines : Nat → Prop) (items : List Item) : Act → Prop
  | .queue (.push place ..) => ∀ plug, items[place]? = some (.plug plug) → lines plug.key
  | _ => True

/-- Any act fills up some lines among all. -/
theorem fillsOnly_true (items : List Item) (act : Act) : act.FillsOnly (fun _ => True) items := by
  unfold FillsOnly
  split
  · exact fun _ _ => trivial
  · trivial

end Act

namespace Scene

open Network (Routine)

variable {lines : Nat → Prop}

/-- Acts on blocks and buffers are routine. -/
theorem routine_block (s : Scene) (act : BlockAct) : s.network.Routine lines (s.stepBlock act).network := by
  cases act
  all_goals
    unfold stepBlock
    dsimp only
    repeat' split
    all_goals first | exact .refl _ | exact .memory _ _

/-- So are acts on packets. -/
theorem routine_packet (s : Scene) (act : PacketAct) : s.network.Routine lines (s.stepPacket act).network := by
  cases act
  all_goals
    unfold stepPacket
    dsimp only
    repeat' split
    all_goals first | exact .refl _ | exact .memory _ _

/-- So is work on a queue by hand, if it can put nothing on an empty one or the line may fill up. -/
theorem routine_onQueueItem {α : Type} {n n' : Network} {f : Queue → Memory → α × Queue × Memory}
    {item item' : Item} {x : α} (h : onQueueItem n f item = some (x, item', n'))
    (hf : Queue.Drains f ∨ ∀ plug, item = .plug plug → lines plug.key) : n.Routine lines n' := by
  cases item with
  | queue q =>
    cases h
    exact .memory _ _
  | plug p =>
    cases h
    exact .queue n p f (hf.imp_right fun hp => hp p rfl)
  | _ => cases h

/-- So are acts on queues that fill up only lines which may. -/
theorem routine_queue (s : Scene) {act : QueueAct} (h : (Act.queue act).FillsOnly lines s.items) :
    s.network.Routine lines (s.stepQueue act).network := by
  -- four of the acts only take away, be it from the queue of a plug
  have hwork {α : Type} {f : Queue → Memory → α × Queue × Memory} (hf : Queue.Drains f) {place : Nat} {item' : Item}
      {x : α} {n' : Network} (h : s.items[place]?.bind (onQueueItem s.network f) = some (x, item', n')) :
      s.network.Routine lines n' := by
    obtain ⟨item, -, hitem⟩ := Option.bind_eq_some_iff.1 h
    exact routine_onQueueItem hitem (.inl hf)
  cases act with
  | new => exact .refl _
  | push place chain budget =>
    unfold stepQueue
    dsimp only
    split
    · rename_i item c hitem hchain
      split
      · rename_i hpush
        exact routine_onQueueItem hpush (.inr fun plug heq => h plug (heq ▸ hitem))
      · exact .refl _
    · exact .refl _
  | take place | drain place | clear place | countDrop place =>
    unfold stepQueue
    dsimp only
    split
    · rename_i h
      refine hwork ?_ h
      first
      | exact Queue.drains_take?
      | exact Queue.drains_drain
      | exact Queue.drains_clear
      | exact Queue.drains_countDrop
    · exact .refl _
  | drop place =>
    unfold stepQueue
    dsimp only
    split
    · exact .memory _ _
    · exact .refl _
  | hold splice id =>
    unfold stepQueue
    dsimp only
    split
    · exact s.network.routine_holdPlug _
    · exact .refl _
  | dropPlug place =>
    unfold stepQueue
    dsimp only
    split
    · exact s.network.routine_dropPlug _
    · exact .refl _

/-- So are acts on the host that leave hooks and table alone. -/
theorem routine_host (s : Scene) {act : HostAct} (hhooks : (Act.host act).handlesHooks = false)
    (htable : (Act.host act).writesTable = false) (h : s.network.ListsOnly lines) :
    s.network.Routine lines (s.stepHost act).network := by
  cases act with
  | addInterface name mac mtu flags => cases htable
  | changeTable f => cases htable
  | exchangeHook hook => cases hhooks
  | putHook hook => cases hhooks
  | unlink hook => cases hhooks
  | inject index bytes cap => exact h.inject index bytes cap
  | send index bytes => exact h.send index bytes
  | announce call => exact s.network.routine_announce call _
  | input index place =>
    unfold stepHost
    dsimp only
    split
    · exact h.receive index _
    · exact .refl _
  | transmit index place =>
    unfold stepHost
    dsimp only
    split
    · exact s.network.routine_transmit index _
    · exact .refl _
  | offerInput index place hook =>
    unfold stepHost
    dsimp only
    split
    · exact h.offerInput index _ _
    · exact .refl _
  | offerOutput index place hook =>
    unfold stepHost
    dsimp only
    split
    · exact h.offerOutput index _ _
    · exact .refl _
  | offerOrphan index place hook =>
    unfold stepHost
    dsimp only
    split
    · exact s.network.routine_offerOrphan index _ _
    · exact .refl _

/-- And acts on splices that do so. -/
theorem routine_splice (s : Scene) {act : SpliceAct} (hhooks : (Act.splice act).handlesHooks = false)
    (htable : (Act.splice act).writesTable = false) (h : s.network.ListsOnly lines) :
    s.network.Routine lines (s.stepSplice act).network := by
  cases act with
  | plug key name id mac => cases htable
  | unplug key id => cases htable
  | unplugEverything key => cases htable
  | takeAll key id => exact s.network.routine_takeAll key id
  | takeNext key id => exact s.network.routine_takeNext key id
  | submit key id places => exact h.submit key id _
  | pages key count => exact s.network.routine_pages key count
  | buffer key size => exact .memory _ _
  | bufferOf key bytes => exact s.network.routine_bufferOf key bytes
  | _ => cases hhooks

/-- All acts are routine but those by which hooks come and go and those that write the interface table. -/
theorem routine_perform (s : Scene) {act : Act} (hhooks : act.handlesHooks = false) (htable : act.writesTable = false)
    (h : s.network.ListsOnly lines) (hfills : act.FillsOnly lines s.items) :
    s.network.Routine lines (s.perform act).network := by
  cases act with
  | block act => exact s.routine_block act
  | packet act => exact s.routine_packet act
  | queue act => exact s.routine_queue hfills
  | host act => exact s.routine_host hhooks htable h
  | splice act => exact s.routine_splice hhooks htable h

end Scene

end Patchbay
