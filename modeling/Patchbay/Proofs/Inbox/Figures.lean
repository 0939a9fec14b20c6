import Patchbay.Proofs.Slot.Routine

/-!
# `Proofs.Inbox.Figures` — what lines count, and who leaves it alone

A line counts what was taken out of its queue and what was sent that was too long. Neither depends on what comes in, on
what is cleared or not let in, or on who holds the plug. A figure of this kind only changes where frames are taken or
sent; hooks that come and go, other plugs, memory and traffic leave it as it is on every line.

## Contents
* `Line.Steady` — a figure that depends on nothing but what was taken and sent;
* `Backplane.figures` — a figure of every line;
* `Backplane.figures_onQueue`, `Registry.figures_unplug`, `Network.figures_receive` and their kin;
* `Act.counts`, `Scene.figures_perform` — the acts that take or send, and all others.
-/

namespace Patchbay

/-! ## Figures of lines -/

/-- A figure that neither depends on what waits nor on who holds the plug. -/
structure Line.Steady (figure : Line → Nat) : Prop where
  queue : ∀ (line : Line) (q : Queue), q.extracted = line.queue.extracted →
    figure { line with queue := q } = figure line
  holders : ∀ (line : Line) (count : Nat), figure { line with holders := count } = figure line

/-- What is pushed is not taken. -/
theorem Queue.extracted_push (q : Queue) (m : Memory) (budget : Nat) (c : Chain) :
    (q.push m budget c).2.1.extracted = q.extracted := by
  unfold push
  split <;> rfl

variable {figure : Line → Nat}

namespace Backplane

variable {p : Backplane} {plug : Plug}

/-- A figure of each line. -/
def figures (p : Backplane) (figure : Line → Nat) (key : Nat) : Nat := figure (p.lines.getD key {})

/-- A line has no part in the figures of the others. -/
theorem figures_setLine (p : Backplane) (plug : Plug) (line : Line) (key : Nat) :
    (p.setLine plug line).figures figure key =
      if plug.key = key ∧ key < p.lines.size then figure line else p.figures figure key := by
  rw [figures, setLine, Array.getD_eq_getD_getElem?, Array.getElem?_setIfInBounds]
  by_cases hkey : plug.key = key
  · subst hkey
    rw [if_pos rfl]
    by_cases hlined : plug.key < p.lines.size
    · rw [if_pos hlined, if_pos ⟨rfl, hlined⟩]
      rfl
    · rw [if_neg hlined, if_neg (fun h => hlined h.2), figures, Array.getD_eq_getD_getElem?,
        Array.getElem?_eq_none (Nat.le_of_not_lt hlined)]
  · rw [if_neg hkey, if_neg (fun h => hkey h.1), ← Array.getD_eq_getD_getElem?]
    rfl

/-- A line that shows the same figure can be put in the place of another one. -/
theorem figures_setLine_same {line : Line} (h : figure line = figure (p.line plug)) :
    (p.setLine plug line).figures figure = p.figures figure := by
  funext key
  rw [figures_setLine]
  split
  · rename_i hkey
    rw [h, ← hkey.1]
    rfl
  · rfl

section Steady

variable (hsteady : Line.Steady figure)
include hsteady

/-- An operation that takes nothing off a queue changes no figure. -/
theorem figures_onQueue {α : Type} {f : Queue → Memory → α × Queue × Memory}
    (hf : ∀ q m, (f q m).2.1.extracted = q.extracted) : (p.onQueue plug f).2.figures figure = p.figures figure :=
  figures_setLine_same (hsteady.queue _ _ (hf _ _))

/-- A copy that is queued is not taken. -/
theorem figures_queueCopy (p : Backplane) (plug : Plug) (budget : Nat) (f : Frame) :
    (Network.queueCopy p plug budget f).figures figure = p.figures figure := by
  rw [Network.queueCopy_eq]
  refine figures_onQueue hsteady fun q m => ?_
  cases f.copy m with
  | mk copy? m =>
    cases copy? with
    | none => rfl
    | some copy => exact q.extracted_push m budget (.last copy)

theorem figures_holdPlug (p : Backplane) (plug : Plug) : (p.holdPlug plug).figures figure = p.figures figure :=
  figures_setLine_same (hsteady.holders _ _)

/-- Nor is what waits at a plug that goes. -/
theorem figures_dropPlug (p : Backplane) (plug : Plug) : (p.dropPlug plug).figures figure = p.figures figure := by
  have hholders : (p.setLine plug { p.line plug with holders := (p.line plug).holders - 1 }).figures figure =
      p.figures figure := figures_setLine_same (hsteady.holders _ _)
  unfold dropPlug
  dsimp only
  split
  · exact (figures_onQueue (f := fun q m => ((), (q.clear m).2)) hsteady fun _ _ => rfl).trans hholders
  · exact hholders

end Steady

end Backplane

namespace Registry

variable (hsteady : Line.Steady figure) (r : Registry) (p : Backplane)

/-- A further line has counted nothing. -/
theorem figures_plug (budget : Nat) (name : String) (id : Nat) (mac : Mac) :
    (r.plug p budget name id mac).2.2.figures figure = p.figures figure := by
  unfold plug
  repeat' split
  all_goals try rfl
  funext key
  rw [Backplane.figures, Backplane.figures, Array.getD_eq_getD_getElem?, Array.getD_eq_getD_getElem?,
    Array.getElem?_push]
  split
  · rename_i hkey
    rw [hkey, Array.getElem?_eq_none (Nat.le_refl _)]
    rfl
  · rfl

include hsteady

/-- Nor what an unplugged id gives back unread. -/
theorem figures_unplug (id : Nat) : (r.unplug p id).2.2.figures figure = p.figures figure := by
  unfold unplug
  split
  · rfl
  · dsimp only
    rw [Backplane.figures_dropPlug hsteady, Backplane.figures_onQueue hsteady fun _ _ => rfl]
    rfl

theorem figures_unplugEach (ids : List Nat) : (r.unplugEach p ids).2.2.figures figure = p.figures figure := by
  induction ids generalizing r p with
  | nil => rfl
  | cons id rest ih => exact (ih _ _).trans (figures_unplug hsteady r p id)

theorem figures_unplugEverything : (r.unplugEverything p).2.2.figures figure = p.figures figure :=
  figures_unplugEach hsteady r p r.ids

end Registry

namespace Network

variable (hsteady : Line.Steady figure) (n : Network)

/-! ## Traffic -/

section Traffic

include hsteady

/-- What a splice keeps and lets go, it only queues. -/
theorem figures_intercept (key index : Nat) (c : Chain) :
    (n.intercept key index c).2.plane.figures figure = n.plane.figures figure := by
  unfold intercept
  dsimp only
  split
  · rfl
  split
  · rfl
  split
  · rfl
  split
  · rfl
  · exact Backplane.figures_onQueue (f := fun q m => q.push m (n.budgetOf key) c) hsteady
      fun q m => q.extracted_push m _ c
  · exact n.plane.figures_queueCopy hsteady _ _ _

/-- So a frame that comes in changes no figure, whatever hooks it meets. -/
theorem figures_offerInput (index : Nat) (c : Chain) (hooks : List Hook) :
    (n.offerInput index c hooks).2.plane.figures figure = n.plane.figures figure := by
  induction hooks generalizing n c with
  | nil => rfl
  | cons hook rest ih =>
    cases hook with
    | foreign hooks =>
      unfold offerInput
      dsimp only
      split <;> rfl
    | splice key =>
      have hstep := n.figures_intercept hsteady key index c
      unfold offerInput
      cases hi : n.intercept key index c with
      | mk chain? n₁ =>
        rw [hi] at hstep
        cases chain? with
        | none => exact hstep
        | some c => exact (ih n₁ c).trans hstep

/-- Nor does one on its way out. -/
theorem figures_offerOutput (index : Nat) (c : Chain) (hooks : List Hook) :
    (n.offerOutput index c hooks).2.plane.figures figure = n.plane.figures figure := by
  induction hooks generalizing n c with
  | nil => rfl
  | cons hook rest ih =>
    cases hook with
    | foreign hooks =>
      unfold offerOutput
      dsimp only
      split <;> rfl
    | splice key =>
      have hstep := n.figures_intercept hsteady key index c
      unfold offerOutput
      cases hi : n.intercept key index c with
      | mk chain? n₁ =>
        rw [hi] at hstep
        cases chain? with
        | none => exact hstep
        | some c => exact (ih n₁ c).trans hstep

/-- Nor does one that is received, whether or not it reaches the stack. -/
theorem figures_receive (index : Nat) (c : Chain) :
    (n.receive index c).plane.figures figure = n.plane.figures figure := by
  have hoffer := n.figures_offerInput hsteady index (c.setHead { c.head with receivedOn := some index }) n.path
  unfold receive
  dsimp only
  split <;> rename_i heq <;> rw [heq] at hoffer <;> exact hoffer

theorem figures_inject (index : Nat) (bytes : List UInt8) (cap : Nat) :
    (n.inject index bytes cap).plane.figures figure = n.plane.figures figure := by
  have hmake : (n.onMemory fun m => Frame.ofBytes m bytes cap (some index)).2.plane.figures figure =
      n.plane.figures figure := rfl
  unfold inject
  split <;> rename_i heq <;> rw [heq] at hmake
  · exact hmake
  · exact (figures_receive hsteady _ index _).trans hmake

theorem figures_send (index : Nat) (bytes : List UInt8) :
    (n.send index bytes).2.plane.figures figure = n.plane.figures figure := by
  have hmake : (n.onMemory fun m => Frame.ofBytes m bytes Frame.largestSegment none).2.plane.figures figure =
      n.plane.figures figure := rfl
  unfold send
  split <;> rename_i heq <;> rw [heq] at hmake
  · exact hmake
  · rename_i f n₁
    have hoffer := (n₁.figures_offerOutput hsteady index (.last f) n₁.path).trans hmake
    split <;> rename_i heq <;> rw [heq] at hoffer <;> exact hoffer

/-- A figure that is not the number of warnings is the same when a frame is sent. -/
theorem figures_submit (hwarned : ∀ line count, figure { line with mtuWarnings := count } = figure line)
    (key id : Nat) (buffers : List View) :
    (n.submit key id buffers).2.plane.figures figure = n.plane.figures figure := by
  have hwarn (n : Network) (plug : Plug) (length : Nat) :
      (n.warnOfLength plug length).plane.figures figure = n.plane.figures figure := by
    unfold warnOfLength
    repeat' split
    · rfl
    · exact Backplane.figures_setLine_same (hwarned _ _)
    · rfl
  unfold submit
  split
  · rfl
  · rename_i plug _
    have hmake : (n.onMemory fun m => Frame.ofBuffers m buffers (some plug.index)).2.plane.figures figure =
        n.plane.figures figure := rfl
    split <;> rename_i heq <;> rw [heq] at hmake
    · exact hmake
    · rename_i f n₁
      have hwarn := (hwarn n₁ plug f.length).trans hmake
      dsimp only
      generalize n₁.warnOfLength plug f.length = n₂ at hwarn
      split
      · exact hmake
      split
      · have hcopy : (n₂.onMemory fun m => f.copy m).2.plane.figures figure = n.plane.figures figure := hwarn
        split <;> rename_i heq <;> rw [heq] at hcopy
        · exact hcopy
        · exact (figures_receive hsteady _ plug.index _).trans hcopy
      split
      · exact (n₂.figures_receive hsteady plug.index _).trans hwarn
      · exact hwarn

end Traffic

theorem figures_offerOrphan (index : Nat) (c : Chain) (hooks : List Hook) :
    (n.offerOrphan index c hooks).plane.figures figure = n.plane.figures figure := by
  induction hooks with
  | nil => rfl
  | cons hook rest ih =>
    cases hook with
    | foreign h => rfl
    | splice key => exact ih

theorem figures_announce (call : String → HookCall) (hooks : List Hook) :
    (n.announce call hooks).plane.figures figure = n.plane.figures figure := by
  induction hooks with
  | nil => rfl
  | cons hook rest ih =>
    cases hook with
    | foreign h => rfl
    | splice key => exact ih

/-! ## Memory -/

theorem figures_memoryFor (key : Nat) (kind : Budget.Kind) (size : Nat) :
    (n.memoryFor key kind size).2.plane.figures figure = n.plane.figures figure :=
  rfl

theorem figures_pages (key count : Nat) : (n.pages key count).2.plane.figures figure = n.plane.figures figure := by
  unfold pages
  split <;> rfl

theorem figures_bufferOf (key : Nat) (bytes : List UInt8) :
    (n.bufferOf key bytes).2.plane.figures figure = n.plane.figures figure := by
  have hbuffer : (n.buffer key bytes.length).2.plane.figures figure = n.plane.figures figure := rfl
  unfold bufferOf
  split <;> rename_i heq <;> rw [heq] at hbuffer <;> exact hbuffer

/-! ## Splices come and go -/

theorem figures_link (hook : Option Hook) : (n.link hook).plane.figures figure = n.plane.figures figure := by
  unfold link
  split <;> rfl

theorem figures_plug (key : Nat) (name : String) (id : Nat) (mac : Mac) :
    (n.plug key name id mac).2.plane.figures figure = n.plane.figures figure :=
  Registry.figures_plug _ _ _ _ _ _

section Splices

include hsteady

theorem figures_unplug (key id : Nat) : (n.unplug key id).2.plane.figures figure = n.plane.figures figure :=
  Registry.figures_unplug hsteady _ _ _

theorem figures_unplugEverything (key : Nat) :
    (n.unplugEverything key).2.plane.figures figure = n.plane.figures figure :=
  Registry.figures_unplugEverything hsteady _ _

theorem figures_abandon (key : Nat) : (n.abandon key).plane.figures figure = n.plane.figures figure := by
  have hdrop (plugs : List Plug) (p : Backplane) :
      (plugs.foldl Backplane.dropPlug p).figures figure = p.figures figure := by
    induction plugs generalizing p with
    | nil => rfl
    | cons plug rest ih => exact (ih _).trans (p.figures_dropPlug hsteady plug)
  exact hdrop _ _

/-- Splices that go take their plugs along, and leave the figures of their lines. -/
theorem figures_disposeWithin (fuel key : Nat) :
    (disposeWithin fuel n key).plane.figures figure = n.plane.figures figure := by
  induction fuel generalizing n key with
  | zero => rfl
  | succ fuel ih =>
    unfold disposeWithin
    repeat' split
    · rfl
    · exact n.figures_abandon hsteady key
    · exact (ih _ _).trans (n.figures_abandon hsteady key)
    · rfl

theorem figures_unlink (hook : Option Hook) : (n.unlink hook).plane.figures figure = n.plane.figures figure := by
  unfold unlink
  split
  · rfl
  · exact figures_disposeWithin hsteady _ _ _

theorem figures_tellPrevious (key : Nat) (hook : Option Hook) :
    (n.tellPrevious key hook).plane.figures figure = n.plane.figures figure := by
  unfold tellPrevious
  split
  · rfl
  · exact n.figures_unlink hsteady hook

theorem figures_startSplice (budget : Nat) :
    (n.startSplice budget).2.plane.figures figure = n.plane.figures figure :=
  (figures_tellPrevious hsteady _ _ _).trans (figures_link _ _)

/-- A splice that takes itself out of the slot changes no figure. -/
theorem figures_tearDown (key : Nat) : (n.tearDown key).plane.figures figure = n.plane.figures figure := by
  unfold tearDown
  repeat' split
  · rfl
  · refine (figures_unplugEverything hsteady _ key).trans ?_
    exact (figures_unlink hsteady _ _).trans (figures_link _ _)
  · rfl

/-- Nor does one whose last handle goes. -/
theorem figures_dropSplice (key : Nat) : (n.dropSplice key).plane.figures figure = n.plane.figures figure := by
  unfold dropSplice
  split
  · rfl
  · refine (figures_disposeWithin hsteady _ _ _).trans ?_
    split
    · exact n.figures_tearDown hsteady key
    · rfl

end Splices

end Network

/-! ## Acts -/

/-- The acts that take frames off a queue, and those by which consumers send. -/
def Act.counts : Act → Bool
  | .queue (.take _) => true
  | .queue (.drain _) => true
  | .splice (.takeAll ..) => true
  | .splice (.takeNext ..) => true
  | .splice (.submit ..) => true
  | _ => false

namespace Scene

/-- Acts on blocks and buffers are no matter of queues. -/
theorem figures_block (s : Scene) (act : BlockAct) :
    (s.stepBlock act).network.plane.figures figure = s.network.plane.figures figure := by
  cases act
  all_goals
    unfold stepBlock
    dsimp only
    repeat' split
    all_goals rfl

/-- Nor are acts on packets that nobody queued. -/
theorem figures_packet (s : Scene) (act : PacketAct) :
    (s.stepPacket act).network.plane.figures figure = s.network.plane.figures figure := by
  cases act
  all_goals
    unfold stepPacket
    dsimp only
    repeat' split
    all_goals rfl

variable (hsteady : Line.Steady figure)
include hsteady

/-- An operation on a queue by hand changes no figure if it takes nothing off. -/
theorem figures_onQueueItem {α : Type} {n n' : Network} {f : Queue → Memory → α × Queue × Memory} {item item' : Item}
    {x : α} (hf : ∀ q m, (f q m).2.1.extracted = q.extracted) (h : onQueueItem n f item = some (x, item', n')) :
    n'.plane.figures figure = n.plane.figures figure := by
  cases item with
  | queue q =>
    cases h
    rfl
  | plug p =>
    cases h
    exact Backplane.figures_onQueue hsteady hf
  | _ => cases h

/-- Of the acts on queues only taking and draining count. -/
theorem figures_queue (s : Scene) {act : QueueAct} (h : (Act.queue act).counts = false) :
    (s.stepQueue act).network.plane.figures figure = s.network.plane.figures figure := by
  cases act with
  | new => rfl
  | take place => cases h
  | drain place => cases h
  | push place chain budget =>
    unfold stepQueue
    dsimp only
    split
    · split
      · rename_i hpush
        exact figures_onQueueItem hsteady (fun q m => q.extracted_push m budget _) hpush
      · rfl
    · rfl
  | clear place | countDrop place =>
    unfold stepQueue
    dsimp only
    split
    · rename_i hwork
      obtain ⟨item, -, hwork⟩ := Option.bind_eq_some_iff.1 hwork
      exact figures_onQueueItem hsteady (fun _ _ => rfl) hwork
    · rfl
  | drop place =>
    unfold stepQueue
    dsimp only
    split <;> rfl
  | hold splice id =>
    unfold stepQueue
    dsimp only
    split
    · exact Backplane.figures_holdPlug hsteady _ _
    · rfl
  | dropPlug place =>
    unfold stepQueue
    dsimp only
    split
    · exact Backplane.figures_dropPlug hsteady _ _
    · rfl

/-- Nothing that happens on the host counts. -/
theorem figures_host (s : Scene) (act : HostAct) :
    (s.stepHost act).network.plane.figures figure = s.network.plane.figures figure := by
  cases act with
  | addInterface name mac mtu flags => rfl
  | changeTable f => rfl
  | inject index bytes cap => exact s.network.figures_inject hsteady index bytes cap
  | send index bytes => exact s.network.figures_send hsteady index bytes
  | announce call => exact s.network.figures_announce call _
  | exchangeHook hook => exact Network.figures_link _ _
  | putHook hook => exact (Network.figures_unlink hsteady _ _).trans (s.network.figures_link hook)
  | unlink hook => exact s.network.figures_unlink hsteady hook
  | input index place =>
    unfold stepHost
    dsimp only
    split
    · exact s.network.figures_receive hsteady index _
    · rfl
  | transmit index place =>
    unfold stepHost
    dsimp only
    split <;> rfl
  | offerInput index place hook =>
    unfold stepHost
    dsimp only
    split
    · exact s.network.figures_offerInput hsteady index _ _
    · rfl
  | offerOutput index place hook =>
    unfold stepHost
    dsimp only
    split
    · exact s.network.figures_offerOutput hsteady index _ _
    · rfl
  | offerOrphan index place hook =>
    unfold stepHost
    dsimp only
    split
    · exact s.network.figures_offerOrphan index _ _
    · rfl

/-- Of the acts on splices only those count by which a consumer takes or sends. -/
theorem figures_splice (s : Scene) {act : SpliceAct} (h : (Act.splice act).counts = false) :
    (s.stepSplice act).network.plane.figures figure = s.network.plane.figures figure := by
  cases act with
  | start budget => exact s.network.figures_startSplice hsteady budget
  | add budget => rfl
  | tellPrevious key hook => exact s.network.figures_tellPrevious hsteady key hook
  | hold key => rfl
  | drop key => exact s.network.figures_dropSplice hsteady key
  | tearDown key => exact s.network.figures_tearDown hsteady key
  | plug key name id mac =>
    unfold stepSplice
    dsimp only
    split
    · exact s.network.figures_plug key name id mac
    · rfl
  | unplug key id => exact s.network.figures_unplug hsteady key id
  | unplugEverything key => exact s.network.figures_unplugEverything hsteady key
  | takeAll key id => cases h
  | takeNext key id => cases h
  | submit key id places => cases h
  | pages key count => exact s.network.figures_pages key count
  | buffer key size => exact s.network.figures_memoryFor key .plain size
  | bufferOf key bytes => exact s.network.figures_bufferOf key bytes

/-- Every act leaves such a figure of every line as it is, unless it takes frames off a queue or a consumer sends. -/
theorem figures_perform (s : Scene) {act : Act} (h : act.counts = false) :
    (s.perform act).network.plane.figures figure = s.network.plane.figures figure := by
  cases act with
  | block act => exact s.figures_block act
  | packet act => exact s.figures_packet act
  | queue act => exact s.figures_queue hsteady h
  | host act => exact s.figures_host hsteady act
  | splice act => exact s.figures_splice hsteady h

end Scene

end Patchbay
