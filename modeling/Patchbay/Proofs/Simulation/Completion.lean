import Patchbay.Proofs.Simulation.Serving
import Patchbay.Proofs.Worker.Lifecycle

/-!
# `Proofs.Simulation.Completion` — how a run of the echo consumer ends

The main thread and the worker take their steps in any order. Wherever a run stands, the consumer has not plugged its
interface yet, or its run loop goes on and serves the peer, or it has answered everything and is on its way out. Once
all frames are sent, each step of the worker brings its end nearer.

A run for no frames is the exception. An iteration that finds nothing does not look whether the consumer is complete, so
nothing ends the run loop before the time is over.

## Contents
* `Stage.Serves`, `Stage.ServesAll` — memory refuses nothing that steps ask for;
* `Stage.Standing` — where a run can stand; `Standing.main` and `Standing.body` — a step, `Standing.play` — a run;
* `Stage.stepsLeft`, `Standing.ends` — how far the worker is from its end;
* `Stage.CanStop`, `Stage.Completes` — where the main thread can stop waiting, and what it reports;
* `play_completes_iff` — a run completes exactly if frames are asked for;
* `simulate_answered` — the run that is made.
-/

namespace Patchbay

open Patchbay.Frame (largestSegment)
open Inbox (HasRoom)

namespace Simulation

/-! ## What a run asks of memory -/

namespace Stage

variable {o : Options} {s : Settings} {t : Stage} {plug : Plug} {stack : List (List UInt8)} {callback : Callback}

/-- Memory refuses nothing that an entry point asks for: the record of the plug, and what the answers to the frames that
wait take. -/
def Grants (t : Stage) : Callback → Prop
  | .startup => t.network.memory.Grants (t.network.budgetOf t.echo.splice) Registry.recordNote Registry.recordSize
  | .iterate => ∀ plug ∈ (t.network.registry t.echo.splice).byId? Echo.plugId,
      t.echo.Affords (t.network.takeAll t.echo.splice Echo.plugId).2 (t.network.bytesWaiting plug)
  | .finalize => True
  | .teardown => True

instance (t : Stage) (callback : Callback) : Decidable (t.Grants callback) :=
  match callback with
  | .startup => inferInstanceAs (Decidable (Memory.Grants ..))
  | .iterate => inferInstanceAs (Decidable (∀ plug ∈ (t.network.registry t.echo.splice).byId? Echo.plugId, _))
  | .finalize => .isTrue trivial
  | .teardown => .isTrue trivial

/-- The entry point that the worker will call next. -/
def next? (t : Stage) : Option Callback :=
  match t.worker.phase with
  | .before callback => some callback
  | _ => none

/-- Memory refuses nothing that a step asks for: the main thread's room for the frame that it sends, and what the entry
point asks for that the worker calls. -/
def Serves (o : Options) (t : Stage) : Move → Prop
  | .main => t.ready = true → t.injected < o.frames →
    HasRoom t.network.memory (t.network.budgetOf t.echo.splice) o.mac (frameFor o.mac o.payload t.injected)
      largestSegment
  | .body => ∀ callback ∈ t.next?, t.Grants callback

instance (o : Options) (t : Stage) (move : Move) : Decidable (t.Serves o move) :=
  match move with
  | .main => inferInstanceAs (Decidable (_ → _ → _))
  | .body => inferInstanceAs (Decidable (∀ callback ∈ t.next?, _))

/-- Memory refuses nothing that steps ask for. -/
def ServesAll (o : Options) (t : Stage) : List Move → Prop
  | [] => True
  | move :: rest => t.Serves o move ∧ (t.step o move).ServesAll o rest

instance decidableServesAll (o : Options) (t : Stage) : (moves : List Move) → Decidable (t.ServesAll o moves)
  | [] => .isTrue trivial
  | move :: rest => @instDecidableAnd _ _ _ (decidableServesAll o (t.step o move) rest)

theorem play_append (moves more : List Move) : t.play o (moves ++ more) = (t.play o moves).play o more :=
  List.foldl_append

theorem servesAll_append {moves more : List Move} :
    t.ServesAll o (moves ++ more) ↔ t.ServesAll o moves ∧ (t.play o moves).ServesAll o more := by
  induction moves generalizing t with
  | nil => exact ⟨fun h => ⟨trivial, h⟩, And.right⟩
  | cons move rest ih =>
    rw [List.cons_append, ServesAll, ServesAll, ih, and_assoc]
    rfl

/-! ## Steps of the worker -/

theorem worker_perform (o : Options) (t : Stage) (callback : Callback) : (t.perform o callback).worker = t.worker := by
  cases callback with
  | startup =>
    unfold perform
    dsimp only
    split <;> rfl
  | iterate => rfl
  | finalize => rfl
  | teardown => rfl

theorem step_before (h : t.worker.phase = .before callback) :
    t.step o .body = { t.perform o callback with
      worker := { t.worker with phase := .inside callback, calls := t.worker.calls ++ [callback] } } := by
  have hworker := worker_perform o t callback
  unfold step goOn Worker.bodyStep?
  simp only [h, hworker]
  rfl

theorem step_inside {reply : Reply} (h : t.worker.phase = .inside callback) (hreply : t.reply = reply) :
    t.step o .body = { t with worker := { t.worker with phase := Worker.afterReply callback reply } } := by
  unfold step goOn Worker.bodyStep?
  simp only [h, hreply]
  rfl

theorem step_checking (h : t.worker.phase = .checking) (hrunning : t.worker.control.state = .running) :
    t.step o .body = { t with worker := { t.worker with phase := .before .iterate } } := by
  unfold step goOn Worker.bodyStep?
  simp only [h, hrunning]
  rfl

theorem step_leaving (h : t.worker.phase = .leaving) :
    t.step o .body = { t with worker := { t.worker with
      control := { t.worker.control with state := .none }, phase := .gone } } := by
  unfold step goOn Worker.bodyStep?
  simp only [h]
  rfl

theorem step_gone (h : t.worker.phase = .gone) : t.step o .body = t := by
  unfold step goOn Worker.bodyStep?
  simp only [h]
  rfl

/-! ## Where a run stands -/

/-- How many steps the worker has before it, if the next iteration completes the loop. -/
def stepsLeft (t : Stage) : Nat :=
  match t.worker.phase with
  | .parked => 11
  | .before .startup => 10
  | .inside .startup => 9
  | .checking => 8
  | .before .iterate => 7
  | .inside .iterate => if t.reply = .completed then 6 else 9
  | phase => phase.stepsLeft

/-- All frames were sent and answered. -/
structure Answered (o : Options) (t : Stage) : Prop where
  some_sent : o.frames ≠ 0
  injected : t.injected = o.frames
  wire : t.network.wire.size = o.frames
  peer : t.network.wire.all isForPeer = true

/-- The run loop goes on. -/
inductive IsInLoop : Phase → Prop where
  | started : IsInLoop (.inside .startup)
  | checking : IsInLoop .checking
  | next : IsInLoop (.before .iterate)
  | iterating : IsInLoop (.inside .iterate)

/-- The consumer has not been called yet. -/
def IsAhead (o : Options) (s : Settings) (t : Stage) : Prop :=
  t = start o s ∨ t = (start o s).step o .body

/-- Where a run can stand: the consumer has not plugged its interface yet, its run loop goes on, or it has answered
everything and is on its way out. -/
inductive Standing (o : Options) (s : Settings) (t : Stage) : Prop where
  | ahead (h : t.IsAhead o s)
  | looping {plug : Plug} {stack : List (List UInt8)} (hplug : IsEchoPlug o plug) (hindex : t.index = plug.index)
      (hserving : Serving o plug t.echo t.network t.injected stack)
      (hshort : t.echo.answered < o.frames ∨ o.frames = 0) (hrunning : t.worker.control.state = .running)
      (hreply : t.reply = .done) (hphase : IsInLoop t.worker.phase)
  | complete (hanswered : t.Answered o)
      (hphase : t.worker.phase.IsPastLoop ∨ t.worker.phase = .inside .iterate ∧ t.reply = .completed)
      (hgone : t.worker.phase = .gone → t.worker.state = .none)

/-- The main thread has sent its frames. -/
structure IsSent (o : Options) (t : Stage) : Prop where
  ready : t.ready = true
  injected : t.injected = o.frames

instance (o : Options) (t : Stage) : Decidable (t.IsSent o) :=
  decidable_of_iff (_ ∧ _) ⟨fun ⟨ready, injected⟩ => ⟨ready, injected⟩, fun h => ⟨h.ready, h.injected⟩⟩

/-- Until the consumer was called, the main thread has seen no plug. -/
theorem IsAhead.not_isSent (h : t.IsAhead o s) : ¬ t.IsSent o := by
  intro hsent
  have hready := hsent.ready
  rcases h with rfl | rfl <;> cases hready

theorem standing_start (o : Options) (s : Settings) : (start o s).Standing o s :=
  .ahead (.inl rfl)

/-- A step of the main thread: it looks for the plug, sends a frame, or waits. -/
theorem step_main (o : Options) (t : Stage) :
    (t.ready = false ∧ t.step o .main = { t with ready := t.isPlugged }) ∨
    (t.ready = true ∧ t.injected < o.frames ∧ t.step o .main = { t with
      network := t.network.inject t.index (frameFor o.mac o.payload t.injected) largestSegment
      injected := t.injected + 1 }) ∨
    (t.ready = true ∧ o.frames ≤ t.injected ∧ t.step o .main = t) := by
  cases hready : t.ready with
  | false => exact .inl ⟨rfl, by simp [step, hready]⟩
  | true =>
    by_cases hmore : t.injected < o.frames
    · exact .inr (.inl ⟨rfl, hmore, by simp [step, hready, hmore]⟩)
    · exact .inr (.inr ⟨rfl, Nat.le_of_not_lt hmore, by simp [step, hready, hmore]⟩)

theorem Standing.main (h : t.Standing o s) (hserves : t.Serves o .main) : (t.step o .main).Standing o s := by
  cases h with
  | ahead h =>
    -- nothing is plugged
    have hstays : t.step o .main = t := by rcases h with rfl | rfl <;> rfl
    rw [hstays]
    exact .ahead h
  | looping hplug hindex hserving hshort hrunning hreply hphase =>
    rcases t.step_main o with ⟨-, heq⟩ | ⟨hready, hmore, heq⟩ | ⟨-, -, heq⟩
    · rw [heq]
      exact .looping hplug hindex hserving hshort hrunning hreply hphase
    · have hsent := hserving.send hplug hmore (hserves hready hmore)
      rw [← hindex] at hsent
      rw [heq]
      exact .looping hplug hindex hsent hshort hrunning hreply hphase
    · rw [heq]
      exact .looping hplug hindex hserving hshort hrunning hreply hphase
  | complete hanswered hphase hgone =>
    rcases t.step_main o with ⟨-, heq⟩ | ⟨-, hmore, -⟩ | ⟨-, -, heq⟩
    · rw [heq]
      exact .complete ⟨hanswered.some_sent, hanswered.injected, hanswered.wire, hanswered.peer⟩ hphase hgone
    · exact absurd hanswered.injected (Nat.ne_of_lt hmore)
    · rw [heq]
      exact .complete hanswered hphase hgone

/-- A stage after the worker's next step, which brings its end nearer once all frames are sent. -/
structure Advances (o : Options) (s : Settings) (t t' : Stage) : Prop where
  standing : t'.Standing o s
  nearer : t.IsSent o → o.frames ≠ 0 → t'.stepsLeft ≤ t.stepsLeft - 1

/-- The consumer plugs its interface in two steps of the worker. -/
theorem play_startup (o : Options) (s : Settings) (hgrants : ((start o s).step o .body).Grants .startup) :
    ∃ plug n' w, IsEchoPlug o plug ∧ Serving o plug (start o s).echo n' 0 [] ∧ w.control.state = .running ∧
      w.phase = .inside .startup ∧
      (start o s).play o [.body, .body] = { start o s with network := n', worker := w } := by
  let t := (start o s).step o .body
  have hphase : t.worker.phase = .before .startup := rfl
  obtain ⟨plug, n', hplugged, hplug, hserving⟩ := plug_host o s hgrants
  have hanswer : t.network.plug t.echo.splice o.interface Echo.plugId o.mac = (.ok (port o).isUp, n') := hplugged
  have hperform : t.perform o .startup = { t with network := n', reply := .done } := by
    unfold perform
    rw [hanswer]
  have hplay : (start o s).play o [.body, .body] = ((start o s).step o .body).step o .body := rfl
  rw [hplay, step_before hphase, hperform]
  exact ⟨plug, n', _, hplug, hserving, rfl, rfl, rfl⟩

theorem advances_ahead (h : t.IsAhead o s) (hserves : t.Serves o .body) : Advances o s t (t.step o .body) := by
  refine ⟨?_, fun hsent => absurd hsent h.not_isSent⟩
  rcases h with rfl | rfl
  · exact .ahead (.inr rfl)
  · obtain ⟨plug, n', w, hplug, hserving, hrunning, hphase, hplay⟩ := play_startup o s (hserves .startup rfl)
    have hstep : ((start o s).step o .body).step o .body = (start o s).play o [.body, .body] := rfl
    rw [hstep, hplay]
    exact .looping hplug hplug.index.symm hserving (Nat.eq_zero_or_pos o.frames).symm hrunning rfl (hphase ▸ .started)

/-- An iteration of the consumer. If some frames wait and all are sent, it is the last one. -/
theorem advances_iterate (hfits : headerBytes + o.payload ≤ largestSegment) (hplug : IsEchoPlug o plug)
    (hindex : t.index = plug.index) (hserving : Serving o plug t.echo t.network t.injected stack)
    (hshort : t.echo.answered < o.frames ∨ o.frames = 0) (hrunning : t.worker.control.state = .running)
    (hat : t.worker.phase = .before .iterate) (hserves : t.Serves o .body) : Advances o s t (t.step o .body) := by
  -- memory refuses none of the answers to what waits
  have hafford : t.echo.Affords (t.network.takeAll t.echo.splice Echo.plugId).2 (t.network.bytesWaiting plug) := by
    refine hserves .iterate ?_ plug (hplug.id ▸ hserving.received.wired.named)
    rw [next?, hat]
    rfl
  obtain ⟨n', hiterate, hleft⟩ := hserving.iterate hplug hfits hafford
  have hperform : t.perform o .iterate = { t with
      network := n'
      echo := { t.echo with answered := t.injected }
      reply := if !stack.isEmpty && decide (t.echo.target ≤ t.injected) then .completed else .done } := by
    unfold perform
    rw [hiterate]
  rw [step_before hat, hperform, hserving.target]
  have hcounted := hserving.counted
  by_cases hdone : stack ≠ [] ∧ o.frames ≤ t.injected
  · obtain ⟨hsome, hall⟩ := hdone
    have hlong := List.length_pos_iff.2 hsome
    have hinjected : t.injected = o.frames := Nat.le_antisymm hserving.bounded hall
    have hreplies : (!stack.isEmpty && decide (o.frames ≤ t.injected)) = true := by simp [hsome, hall]
    rw [hreplies]
    refine ⟨.complete ⟨?_, hinjected, hleft.wire.trans hinjected, hleft.peer⟩ (.inr ⟨rfl, rfl⟩) nofun,
      fun _ _ => ?_⟩
    · omega
    · simp only [stepsLeft, hat]
      exact Nat.le_refl 6
  · -- nothing waited, or there is more to come; either way the loop goes on
    have hmore : t.injected < o.frames ∨ o.frames = 0 := by
      by_cases hsome : stack = []
      · rw [hsome, List.length_nil, Nat.add_zero] at hcounted
        exact hcounted ▸ hshort
      · exact .inl (Nat.lt_of_not_le fun hall => hdone ⟨hsome, hall⟩)
    have hreplies : (!stack.isEmpty && decide (o.frames ≤ t.injected)) = false := by
      simpa using hdone
    rw [hreplies]
    refine ⟨.looping hplug hindex hleft hmore hrunning rfl .iterating, fun hsent hne => ?_⟩
    have hinjected := hsent.injected
    omega

/-- The consumer's run loop goes on, or is complete. -/
theorem advances_looping (hfits : headerBytes + o.payload ≤ largestSegment) (hplug : IsEchoPlug o plug)
    (hindex : t.index = plug.index) (hserving : Serving o plug t.echo t.network t.injected stack)
    (hshort : t.echo.answered < o.frames ∨ o.frames = 0) (hrunning : t.worker.control.state = .running)
    (hreply : t.reply = .done) (hphase : IsInLoop t.worker.phase) (hserves : t.Serves o .body) :
    Advances o s t (t.step o .body) := by
  generalize hat : t.worker.phase = phase at hphase
  cases hphase with
  | started =>
    rw [step_inside hat hreply]
    refine ⟨.looping hplug hindex hserving hshort hrunning hreply .checking, fun _ _ => ?_⟩
    simp only [stepsLeft, hat]
    exact Nat.le_refl 8
  | checking =>
    rw [step_checking hat hrunning]
    refine ⟨.looping hplug hindex hserving hshort hrunning hreply .next, fun _ _ => ?_⟩
    simp only [stepsLeft, hat]
    exact Nat.le_refl 7
  | next => exact advances_iterate hfits hplug hindex hserving hshort hrunning hat hserves
  | iterating =>
    rw [step_inside hat hreply]
    refine ⟨.looping hplug hindex hserving hshort hrunning hreply .checking, fun _ _ => ?_⟩
    simp only [stepsLeft, hat, hreply]
    exact Nat.le_refl 8

theorem stepsLeft_of_past (h : t.worker.phase.IsPastLoop) : t.stepsLeft = t.worker.phase.stepsLeft := by
  unfold stepsLeft
  split
  case h_7 => rfl
  all_goals
    rename_i hat
    rw [hat] at h
    exact h.elim

/-- Past the loop each entry point is followed by the next one, and all of them by the end. -/
theorem past_inside (h : (Phase.before callback).IsPastLoop) :
    (Phase.inside callback).IsPastLoop ∧ (Phase.inside callback).stepsLeft ≤ (Phase.before callback).stepsLeft - 1 := by
  cases callback with
  | startup | iterate => exact h.elim
  | finalize | teardown => exact ⟨trivial, by decide⟩

theorem past_afterReply (h : (Phase.inside callback).IsPastLoop) (reply : Reply) :
    (Worker.afterReply callback reply).IsPastLoop := by
  cases callback with
  | startup | iterate => exact h.elim
  | finalize | teardown => cases reply <;> trivial

theorem advances_past {t' : Stage} (hpast : t.worker.phase.IsPastLoop) (hanswered : t'.Answered o)
    (hpast' : t'.worker.phase.IsPastLoop) (hgone : t'.worker.phase = .gone → t'.worker.state = .none)
    (hless : t'.worker.phase.stepsLeft ≤ t.worker.phase.stepsLeft - 1) : Advances o s t t' := by
  refine ⟨.complete hanswered (.inl hpast') hgone, fun _ _ => ?_⟩
  rw [stepsLeft_of_past hpast, stepsLeft_of_past hpast']
  exact hless

/-- The worker ends. -/
theorem advances_complete (hanswered : t.Answered o)
    (hphase : t.worker.phase.IsPastLoop ∨ t.worker.phase = .inside .iterate ∧ t.reply = .completed)
    (hgone : t.worker.phase = .gone → t.worker.state = .none) : Advances o s t (t.step o .body) := by
  -- the wire is all that matters, and nobody touches it any more
  have hstays (t' : Stage) (hsent : t'.injected = t.injected) (hsame : t'.network.wire = t.network.wire) :
      t'.Answered o :=
    ⟨hanswered.some_sent, hsent.trans hanswered.injected, hsame ▸ hanswered.wire, hsame ▸ hanswered.peer⟩
  rcases hphase with hpast | ⟨hat, hcompleted⟩
  · have hnext := hpast
    cases hat : t.worker.phase with
    | parked | checking =>
      rw [hat] at hnext
      exact hnext.elim
    | before callback =>
      rw [hat] at hnext
      obtain ⟨hinside, hless⟩ := past_inside hnext
      have hperform : (t.perform o callback).injected = t.injected ∧
          (t.perform o callback).network.wire = t.network.wire := by
        cases callback with
        | startup | iterate => exact hnext.elim
        | finalize | teardown => exact ⟨rfl, rfl⟩
      rw [step_before hat]
      exact advances_past hpast (hstays _ hperform.1 hperform.2) hinside nofun (by rw [hat]; exact hless)
    | inside callback =>
      rw [hat] at hnext
      have hless := Worker.stepsLeft_afterReply callback t.reply
      rw [step_inside hat rfl]
      refine advances_past hpast (hstays _ rfl rfl) (past_afterReply hnext t.reply) (fun h => ?_) ?_
      · exact absurd h (Worker.afterReply_ne callback t.reply).2
      · rw [hat]
        exact Nat.le_sub_one_of_lt hless
    | leaving =>
      rw [step_leaving hat]
      exact advances_past hpast (hstays _ rfl rfl) trivial (fun _ => rfl) (Nat.zero_le _)
    | gone =>
      rw [step_gone hat]
      exact advances_past hpast hanswered hpast hgone (by rw [hat]; exact Nat.zero_le _)
  · rw [step_inside hat hcompleted]
    refine ⟨.complete (hstays _ rfl rfl) (.inl trivial) nofun, fun _ _ => ?_⟩
    simp only [stepsLeft, hat, hcompleted]
    exact Nat.le_refl 5

theorem Standing.body (hfits : headerBytes + o.payload ≤ largestSegment) (h : t.Standing o s)
    (hserves : t.Serves o .body) : Advances o s t (t.step o .body) := by
  cases h with
  | ahead h => exact advances_ahead h hserves
  | looping hplug hindex hserving hshort hrunning hreply hphase =>
    exact advances_looping hfits hplug hindex hserving hshort hrunning hreply hphase hserves
  | complete hanswered hphase hgone => exact advances_complete hanswered hphase hgone

/-- Over any steps, in any order, that memory refuses nothing to. -/
theorem Standing.play (hfits : headerBytes + o.payload ≤ largestSegment) (h : t.Standing o s) {moves : List Move}
    (hserved : t.ServesAll o moves) : (t.play o moves).Standing o s := by
  induction moves generalizing t with
  | nil => exact h
  | cons move rest ih =>
    obtain ⟨hfirst, hrest⟩ := hserved
    cases move with
    | main => exact ih (h.main hfirst) hrest
    | body => exact ih (h.body hfits hfirst).standing hrest

/-! ## The end of a run -/

/-- The stage after further steps of the worker. -/
def later (o : Options) (t : Stage) (count : Nat) : Stage :=
  t.play o (List.replicate count .body)

theorem later_add (count more : Nat) : t.later o (count + more) = (t.later o count).later o more := by
  rw [later, List.replicate_add, play_append]
  rfl

theorem later_succ (count : Nat) : t.later o (count + 1) = (t.step o .body).later o count := rfl

/-- The time may be over: every frame that was sent is answered, and no further steps of the worker end it. -/
structure Exhausted (o : Options) (t : Stage) : Prop where
  answered : t.injected ≤ t.echo.answered
  endless : ∀ count, (t.later o count).worker.state ≠ .none

/-- The main thread can stop waiting here: the worker has ended, or the time is over. -/
def CanStop (o : Options) (t : Stage) : Prop :=
  t.worker.state = .none ∨ t.Exhausted o

/-- The run completes: the main thread can stop waiting after a few further steps of the worker, and wherever it stops
it reports that all frames were sent and as many answered, with nothing wrong. -/
structure Completes (o : Options) (t : Stage) : Prop where
  stops : ∃ count ≤ 9, (t.later o count).CanStop o
  reports : ∀ count, (t.later o count).CanStop o →
    ((t.later o count).conclude o).line = some (summary o.frames o.frames) ∧
      ((t.later o count).conclude o).code = some 0

theorem isSent_body (h : t.IsSent o) : (t.step o .body).IsSent o := by
  have hsame (callback : Callback) : (t.perform o callback).ready = t.ready ∧
      (t.perform o callback).injected = t.injected := by
    cases callback with
    | startup =>
      unfold perform
      dsimp only
      split <;> exact ⟨rfl, rfl⟩
    | iterate => exact ⟨rfl, rfl⟩
    | finalize => exact ⟨rfl, rfl⟩
    | teardown => exact ⟨rfl, rfl⟩
  have hstep : t.step o .body = match t.worker.phase with
      | .before callback => (t.perform o callback).goOn
      | _ => t.goOn := rfl
  rw [hstep]
  split
  · exact ⟨(hsame _).1.trans h.ready, (hsame _).2.trans h.injected⟩
  · exact ⟨h.ready, h.injected⟩

/-- A run that can go on from where it stands, all frames sent. -/
theorem Standing.later (hfits : headerBytes + o.payload ≤ largestSegment) (h : t.Standing o s) (hsent : t.IsSent o)
    (hne : o.frames ≠ 0) {count : Nat} (hserved : t.ServesAll o (List.replicate count .body)) :
    (t.later o count).Standing o s ∧ (t.later o count).IsSent o ∧
      (t.later o count).stepsLeft ≤ t.stepsLeft - count := by
  induction count generalizing t with
  | zero => exact ⟨h, hsent, Nat.le_refl _⟩
  | succ count ih =>
    obtain ⟨hfirst, hrest⟩ := hserved
    obtain ⟨hstanding, hnearer⟩ := h.body hfits hfirst
    obtain ⟨hlater, hsent', hleft⟩ := ih hstanding (isSent_body hsent) hrest
    rw [later_succ]
    have := hnearer hsent hne
    exact ⟨hlater, hsent', by omega⟩

theorem stepsLeft_le (hparked : t.worker.phase ≠ .parked) (hstartup : t.worker.phase ≠ .before .startup) :
    t.stepsLeft ≤ 9 := by
  unfold stepsLeft
  split
  · rename_i hat
    exact absurd hat hparked
  · rename_i hat
    exact absurd hat hstartup
  · exact Nat.le_refl 9
  · exact Nat.le_succ 8
  · decide
  · split <;> decide
  · exact Phase.stepsLeft_le _

theorem gone_of_stepsLeft (h : t.stepsLeft = 0) : t.worker.phase = .gone := by
  unfold stepsLeft at h
  split at h
  · cases h
  · cases h
  · cases h
  · cases h
  · cases h
  · split at h <;> cases h
  · exact Phase.gone_of_stepsLeft h

/-- Once its frames are sent, the main thread has seen the plug. -/
theorem Standing.stepsLeft_le (h : t.Standing o s) (hsent : t.IsSent o) : t.stepsLeft ≤ 9 := by
  have hbegun : t.worker.phase ≠ .parked ∧ t.worker.phase ≠ .before .startup := by
    cases h with
    | ahead h => exact absurd hsent h.not_isSent
    | looping hplug hindex hserving hshort hrunning hreply hphase =>
      exact ⟨fun hat => (nomatch hat ▸ hphase), fun hat => (nomatch hat ▸ hphase)⟩
    | complete hanswered hphase hgone =>
      constructor <;> intro hat <;> rw [hat] at hphase <;> exact hphase.elim False.elim nofun
  exact Stage.stepsLeft_le hbegun.1 hbegun.2

/-- A worker that has ended stays so. -/
theorem later_gone (h : t.worker.phase = .gone) (count : Nat) : t.later o count = t := by
  induction count with
  | zero => rfl
  | succ count ih => rw [later_succ, step_gone h, ih]

/-- Where the worker has ended, all is as it should be. -/
theorem Standing.conclude (h : t.Standing o s) (hnone : t.worker.state = .none) :
    t.conclude o = ⟨some (summary o.frames o.frames), none⟩ := by
  cases h with
  | ahead h => rcases h with rfl | rfl <;> cases hnone
  | looping hplug hindex hserving hshort hrunning hreply hphase =>
    rw [Worker.state, hrunning] at hnone
    cases hnone
  | complete hanswered hphase hgone =>
    unfold Stage.conclude
    rw [hanswered.peer, hanswered.injected, hanswered.wire, hnone]
    rfl

/-- Frames are asked for and sent: nine steps of the worker later it has ended. -/
theorem Standing.ends (hfits : headerBytes + o.payload ≤ largestSegment) (h : t.Standing o s) (hsent : t.IsSent o)
    (hne : o.frames ≠ 0) (hserved : t.ServesAll o (List.replicate 9 .body)) :
    (t.later o 9).worker.phase = .gone ∧ (t.later o 9).worker.state = .none := by
  obtain ⟨hlater, -, hleft⟩ := h.later hfits hsent hne hserved
  have hgone : (t.later o 9).worker.phase = .gone := by
    have := h.stepsLeft_le hsent
    exact gone_of_stepsLeft (by omega)
  refine ⟨hgone, ?_⟩
  cases hlater with
  | ahead h => rcases h with heq | heq <;> rw [heq] at hgone <;> cases hgone
  | looping _ _ _ _ _ _ hphase => exact (nomatch hgone ▸ hphase)
  | complete _ _ hnone => exact hnone hgone

theorem Standing.completes (hfits : headerBytes + o.payload ≤ largestSegment) (h : t.Standing o s) (hsent : t.IsSent o)
    (hne : o.frames ≠ 0) (hserved : t.ServesAll o (List.replicate 9 .body)) : t.Completes o := by
  obtain ⟨hgone, hnone⟩ := h.ends hfits hsent hne hserved
  have hstays (count : Nat) : t.later o (9 + count) = t.later o 9 := by rw [later_add, later_gone hgone]
  have hstanding (count : Nat) : (t.later o count).Standing o s := by
    rcases Nat.le_total count 9 with hle | hle
    · rw [← Nat.add_sub_cancel' hle, List.replicate_add, servesAll_append] at hserved
      exact (h.later hfits hsent hne hserved.1).1
    · rw [← Nat.add_sub_cancel' hle, hstays]
      exact (h.later hfits hsent hne hserved).1
  refine ⟨⟨9, Nat.le_refl 9, .inl hnone⟩, fun count hstop => ?_⟩
  have hstopped : (t.later o count).worker.state = .none := by
    rcases hstop with hnone' | hexhausted
    · exact hnone'
    · refine absurd ?_ (hexhausted.endless 9)
      rw [← later_add, Nat.add_comm, hstays]
      exact hnone
  rw [(hstanding count).conclude hstopped]
  exact ⟨rfl, rfl⟩

/-- No frames are asked for: the run loop goes on, and nothing waits for it. -/
theorem Standing.idle (h : t.Standing o s) (hsent : t.IsSent o) (hnone : o.frames = 0) :
    t.worker.state = .running ∧ t.Serves o .body := by
  cases h with
  | ahead h => exact absurd hsent h.not_isSent
  | @looping plug stack hplug hindex hserving hshort hrunning hreply hphase =>
    refine ⟨hrunning, fun callback hcallback => ?_⟩
    have hempty : stack = [] := by
      have := hserving.counted
      have := hsent.injected
      exact List.eq_nil_of_length_eq_zero (by omega)
    generalize hat : t.worker.phase = phase at hphase
    unfold next? at hcallback
    rw [hat] at hcallback
    cases hphase with
    | started => cases hcallback
    | checking => cases hcallback
    | iterating => cases hcallback
    | next =>
      cases hcallback
      intro other hother
      have hnamed := hserving.received.wired.named
      rw [hplug.id] at hnamed
      rw [Option.mem_def, hnamed] at hother
      cases hother
      rw [hserving.received.shown, hempty]
      exact Echo.affords_nil _ _
  | complete hanswered => exact absurd hnone hanswered.some_sent

theorem Standing.endless (hfits : headerBytes + o.payload ≤ largestSegment) (h : t.Standing o s) (hsent : t.IsSent o)
    (hnone : o.frames = 0) (count : Nat) : (t.later o count).worker.state ≠ .none := by
  obtain ⟨hrunning, hserves⟩ := h.idle hsent hnone
  induction count generalizing t with
  | zero =>
    show t.worker.state ≠ .none
    rw [hrunning]
    nofun
  | succ count ih =>
    have hnext := (h.body hfits hserves).standing
    have hsent' := isSent_body hsent
    obtain ⟨hrunning', hserves'⟩ := hnext.idle hsent' hnone
    exact ih hnext hsent' hrunning' hserves'

/-- The main thread stops waiting once its time is over, and reports so. -/
theorem Standing.not_completes (hfits : headerBytes + o.payload ≤ largestSegment) (h : t.Standing o s)
    (hsent : t.IsSent o) (hnone : o.frames = 0) :
    t.Exhausted o ∧ t.conclude o = ⟨some (summary 0 t.network.wire.size), some (.unfinished o.timeoutMs)⟩ ∧
      ¬ t.Completes o := by
  have hinjected : t.injected = 0 := hsent.injected.trans hnone
  have hexhausted : t.Exhausted o := ⟨hinjected ▸ Nat.zero_le _, h.endless hfits hsent hnone⟩
  have hgoing : t.worker.state ≠ .none := h.endless hfits hsent hnone 0
  have hconclude : t.conclude o = ⟨some (summary 0 t.network.wire.size), some (.unfinished o.timeoutMs)⟩ := by
    unfold Stage.conclude
    rw [if_pos hgoing, hinjected]
  refine ⟨hexhausted, hconclude, fun hcompletes => ?_⟩
  obtain ⟨-, hcode⟩ := hcompletes.reports 0 (.inr hexhausted)
  have hcode' : (t.conclude o).code = some 0 := hcode
  rw [hconclude] at hcode'
  cases hcode'

end Stage

variable {t : Stage}

/-- **A run completes exactly if frames are asked for.** The interface has any name and the consumer any address, and a
frame fits one segment. The two threads take their steps in any order, until the main thread has sent its frames. Memory
refuses nothing, neither in these steps nor in nine more of the worker.

If frames are asked for, the main thread can stop waiting at most nine steps of the worker later, and wherever it can
stop, it reports that all frames were sent and as many answered, and nothing is wrong. If none are asked for, this
fails: the worker goes on until the time is over. -/
theorem play_completes_iff (o : Options) (s : Settings) (moves : List Move)
    (hfits : headerBytes + o.payload ≤ largestSegment)
    (hserved : (Stage.start o s).ServesAll o (moves ++ List.replicate 9 .body))
    (hsent : ((Stage.start o s).play o moves).IsSent o) :
    ((Stage.start o s).play o moves).Completes o ↔ o.frames ≠ 0 := by
  obtain ⟨hcame, hleft⟩ := Stage.servesAll_append.1 hserved
  have hstanding := (Stage.standing_start o s).play hfits hcame
  exact ⟨fun hcompletes hnone => (hstanding.not_completes hfits hsent hnone).2.2 hcompletes,
    fun hne => hstanding.completes hfits hsent hne hleft⟩

/-- One frame comes before an iteration and one behind it. -/
theorem play_completes_iff_split :
    let o : Options := { frames := 2, payload := 1 }
    let s := Settings.resolve (fun _ => none) "echo"
    let moves : List Move := [.body, .body, .main, .main, .body, .body, .body, .main]
    headerBytes + o.payload ≤ largestSegment ∧
      (Stage.start o s).ServesAll o (moves ++ List.replicate 9 .body) ∧ ((Stage.start o s).play o moves).IsSent o ∧
      ((Stage.start o s).play o moves).echo.answered = 1 ∧ ((Stage.start o s).play o moves).Completes o := by
  intro o s moves
  have hfits : headerBytes + o.payload ≤ largestSegment := by decide
  have hserved : (Stage.start o s).ServesAll o (moves ++ List.replicate 9 .body) := by decide +kernel
  have hsent : ((Stage.start o s).play o moves).IsSent o := by decide +kernel
  have hone : ((Stage.start o s).play o moves).echo.answered = 1 := by decide +kernel
  exact ⟨hfits, hserved, hsent, hone, (play_completes_iff o s moves hfits hserved hsent).2 (by decide)⟩

/-- A run for no frames: all of them are sent and answered, and yet the consumer does not finish. -/
theorem not_completes_idle :
    let o : Options := { frames := 0 }
    let s := Settings.resolve (fun _ => none) "echo"
    let moves : List Move := [.body, .body, .main]
    let t := (Stage.start o s).play o moves
    headerBytes + o.payload ≤ largestSegment ∧ (Stage.start o s).ServesAll o (moves ++ List.replicate 9 .body) ∧
      t.IsSent o ∧ t.Exhausted o ∧ ¬ t.Completes o ∧
      t.conclude o = ⟨some "injected 0 frames, 0 echoed", some (.unfinished 5000)⟩ ∧ simulate o s = t.conclude o := by
  intro o s moves t
  have hfits : headerBytes + o.payload ≤ largestSegment := by decide
  have hserved : (Stage.start o s).ServesAll o (moves ++ List.replicate 9 .body) := by decide +kernel
  have hsent : t.IsSent o := by decide +kernel
  have hstanding := (Stage.standing_start o s).play hfits (Stage.servesAll_append.1 hserved).1
  obtain ⟨hexhausted, -, hnot⟩ := hstanding.not_completes hfits hsent rfl
  have hline : t.conclude o = ⟨some "injected 0 frames, 0 echoed", some (.unfinished 5000)⟩ := by decide +kernel
  refine ⟨hfits, hserved, hsent, hexhausted, hnot, hline, ?_⟩
  rw [hline]
  decide +kernel

/-! ## The run that is made -/

theorem frameFault?_of_fits (hfits : headerBytes + o.payload ≤ largestSegment) : frameFault? o = none := by
  have hlong : headerBytes + o.payload ≤ 2048 := hfits
  have hbound : ¬ Budget.signedBound ≤ headerBytes + o.payload := by
    unfold Budget.signedBound
    omega
  have hroom : Budget.Heap.standard (headerBytes + o.payload) = true := by
    unfold Budget.Heap.standard
    rw [decide_eq_true_eq]
    omega
  unfold frameFault?
  dsimp only
  rw [if_neg hbound, if_pos hroom, ite_self]

/-- The main thread sends what is left to send, one frame in a step. -/
theorem Stage.isSent_mains (hready : t.ready = true) {count : Nat} (hcount : t.injected + count = o.frames) :
    (t.play o (List.replicate count .main)).IsSent o := by
  induction count generalizing t with
  | zero => exact ⟨hready, hcount⟩
  | succ count ih =>
    rcases t.step_main o with ⟨hunready, -⟩ | ⟨-, -, heq⟩ | ⟨-, hall, -⟩
    · exact absurd (hready.symm.trans hunready) (by decide)
    · show ((t.step o .main).play o _).IsSent o
      rw [heq]
      refine ih hready ?_
      show t.injected + 1 + count = o.frames
      omega
    · omega

/-- Once the interface is plugged, the main thread looks for it and then sends its frames. -/
theorem Stage.isSent_plugged (hplugged : t.isPlugged = true) (hready : t.ready = false) (hinjected : t.injected = 0) :
    (t.play o (List.replicate (o.frames + 1) .main)).IsSent o := by
  have hlook : t.step o .main = { t with ready := true } := by simp [step, hready, hplugged]
  show ((t.step o .main).play o _).IsSent o
  rw [hlook]
  exact isSent_mains rfl (hinjected ▸ Nat.zero_add _)

/-- Frames that fit are asked for, and there is time for a pause of the consumer: the run that is made is good. -/
theorem simulate_answered (o : Options) (s : Settings) (hfits : headerBytes + o.payload ≤ largestSegment)
    (hne : o.frames ≠ 0) (htime : o.timeoutMs ≠ 0) (hpause : pauseNanoseconds s ≤ o.timeoutMs * 1000000)
    (hserved : (Stage.start o s).ServesAll o
      ([.body, .body] ++ List.replicate (o.frames + 1) .main ++ List.replicate 9 .body)) :
    simulate o s = ⟨some (summary o.frames o.frames), none⟩ := by
  obtain ⟨hcame, hleft⟩ := Stage.servesAll_append.1 hserved
  have hstanding := (Stage.standing_start o s).play hfits hcame
  obtain ⟨plug, n', w, hplug, hserving, -, -, hplay⟩ := Stage.play_startup o s (hcame.2.1 .startup rfl)
  have hplugged : ((Stage.start o s).play o [.body, .body]).isPlugged = true := by
    have hnamed := hserving.received.wired.named
    rw [hplug.id] at hnamed
    rw [hplay]
    exact congrArg Option.isSome hnamed
  rw [Stage.play_append] at hstanding hleft
  have hsent : (((Stage.start o s).play o [.body, .body]).play o (List.replicate (o.frames + 1) .main)).IsSent o :=
    Stage.isSent_plugged hplugged (hplay ▸ rfl) (hplay ▸ rfl)
  obtain ⟨-, hnone⟩ := hstanding.ends hfits hsent hne hleft
  unfold simulate
  dsimp only
  rw [hplugged, frameFault?_of_fits hfits]
  dsimp only
  rw [if_neg (by simpa using htime), if_neg (Nat.not_lt.2 hpause)]
  exact (hstanding.later hfits hsent hne hleft).1.conclude hnone

end Simulation

end Patchbay
