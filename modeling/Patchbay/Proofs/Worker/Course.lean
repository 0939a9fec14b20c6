import Mathlib.Data.List.Basic
import Patchbay.Worker.Basic

/-!
# `Proofs.Worker.Course` — a worker between its owner and its consumer

The owner launches a worker, shuts it down and drops it, as often as it likes; the body on its thread goes on by
itself. Whatever one side does under the lock is one move, and the moves of the two sides come in any order. The
*course* of a worker is where the two sides stand, together with all that either of them has seen.

## Contents
* `Course.Owner`, `Course.Event`, `Course.Move` — where the owner stands, what is seen, what can happen next;
* `Course.step`, `Course.run` — moves carried out;
* `Course.callbacks`, `Course.turns` — the entry points that were called, and the states that were come to;
* `Worker.Goes`, `Worker.launch_cases`, `Worker.beginShutdown_cases` — all that body and owner can do in a step;
* `Worker.Sound` — how flags, phase and calls hang together; `Sound.launch` and its kin keep it.
-/

namespace Patchbay

namespace Course

/-- Where the owner stands. -/
inductive Owner where
  /-- In no call. -/
  | free
  /-- In a shutdown that waits for the body to end or for its time to be over. -/
  | waiting
  /-- In a shutdown that has its answer, and joins the thread first or does not. -/
  | returning (answer : Shutdown) (joins : Bool)
deriving DecidableEq

/-- What owner and consumer see. -/
inductive Event where
  | launched (answer : Except WorkerFailure Unit)
  /-- A shutdown is called. -/
  | asked
  /-- A shutdown returns. -/
  | shutDown (answer : Shutdown)
  | called (callback : Callback)
  | returned (callback : Callback) (reply : Reply)
  /-- The body ends. -/
  | exited
  /-- The state changes. -/
  | turned (state : WorkerState)
deriving DecidableEq

/-- What can happen next. -/
inductive Move where
  | launch
  | shutdown
  /-- The wait of a shutdown is over: the body has ended, or the time is up. -/
  | stopWaiting
  /-- A shutdown returns. -/
  | answer
  | drop
  /-- The body goes on; an entry point that it is in returns so. -/
  | body (reply : Reply)
deriving DecidableEq

/-- No entry point panics. -/
def Move.Returns (m : Move) : Prop := m ≠ .body .panicked

instance : DecidablePred Move.Returns := fun m => inferInstanceAs (Decidable (m ≠ _))

end Course

/-- A worker, where its owner stands, and all that was seen so far. -/
structure Course where
  worker : Worker := {}
  owner : Course.Owner := .free
  /-- Whether the owner has dropped the worker. -/
  dropped : Bool := false
  events : List Course.Event := []

namespace Course

/-! ## Moves -/

/-- The owner can make a call. -/
def IsIdle (c : Course) : Prop := c.owner = .free ∧ c.dropped = false

instance (c : Course) : Decidable c.IsIdle := inferInstanceAs (Decidable (_ ∧ _))

/-- What is seen of a change of the state. -/
def turn (old new : WorkerState) : List Event :=
  if new = old then [] else [.turned new]

/-- The course with its worker changed, which shows in events and in the state. -/
def become (c : Course) (w : Worker) (events : List Event) : Course :=
  { c with worker := w, events := c.events ++ (events ++ turn c.worker.state w.state) }

/-- What is seen of a step of the body. -/
def seen : Phase → Reply → List Event
  | .before callback, _ => [.called callback]
  | .inside callback, reply => [.returned callback reply]
  | .leaving, _ => [.exited]
  | _, _ => []

/-- A shutdown is called. It has its answer at once, or it waits; a thread that it takes and does not wait for is
joined. -/
def ask (c : Course) : Course :=
  match c.worker.beginShutdown with
  | (some answer, w) => { c.become w [.asked] with owner := .returning answer c.worker.attached }
  | (none, w) => { c.become w [.asked] with owner := .waiting }

/-- A move carried out; one that is not possible just then changes nothing. -/
def step (c : Course) : Move → Course
  | .launch =>
    if c.IsIdle then c.become c.worker.launch.2 [.launched c.worker.launch.1] else c
  | .shutdown => if c.IsIdle then c.ask else c
  | .stopWaiting =>
    if c.owner = .waiting then
      let (answer, w) := c.worker.endShutdown
      { c.become w [] with owner := .returning answer (answer = .stopped) }
    else c
  | .answer =>
    match c.owner with
    | .returning answer joins =>
      if joins = true → c.worker.phase = .gone then
        { c with owner := .free, events := c.events ++ [.shutDown answer] }
      else c
    | _ => c
  | .drop =>
    if c.IsIdle then { (if c.worker.attached then c.ask else c) with dropped := true } else c
  | .body reply =>
    match c.worker.bodyStep? reply with
    | none => c
    | some w => c.become w (seen c.worker.phase reply)

/-- Moves carried out one after another. -/
def run (c : Course) (moves : List Move) : Course :=
  moves.foldl step c

/-- The entry point that an event is the call of. -/
def Event.callback? : Event → Option Callback
  | .called callback => some callback
  | _ => none

/-- The state that an event comes to. -/
def Event.state? : Event → Option WorkerState
  | .turned state => some state
  | _ => none

/-- The entry points that were called, in order. -/
def callbacks (c : Course) : List Callback := c.events.filterMap Event.callback?

/-- The states that were come to, in order. -/
def turns (c : Course) : List WorkerState := c.events.filterMap Event.state?

end Course

/-! ## What holds of a worker -/

/-- The calls before the loop has ended, with so many iterations. -/
def Callback.rounds (iterations : Nat) : List Callback :=
  .startup :: List.replicate iterations .iterate

/-- All calls, with so many iterations. -/
def Callback.course (iterations : Nat) : List Callback :=
  rounds iterations ++ [.finalize, .teardown]

/-- The calls that were made when a body that was launched stands somewhere. -/
def Phase.Reached (calls : List Callback) : Phase → Prop
  | .parked | .before .startup => calls = []
  | .inside .startup => calls = Callback.rounds 0
  | .checking | .before .iterate | .inside .iterate | .before .finalize => ∃ k, calls = Callback.rounds k
  | .inside .finalize | .before .teardown => ∃ k, calls = Callback.rounds k ++ [.finalize]
  | .inside .teardown | .leaving | .gone => ∃ k, calls = Callback.course k

/-- Calls that were made begin a course. -/
theorem Phase.Reached.begins_course {calls : List Callback} {phase : Phase} (h : phase.Reached calls) :
    ∃ k, calls <+: Callback.course k := by
  have hlooping : (∃ k, calls = Callback.rounds k) → ∃ k, calls <+: Callback.course k := by
    rintro ⟨k, rfl⟩
    exact ⟨k, List.prefix_append _ _⟩
  have hending : (∃ k, calls = Callback.rounds k ++ [.finalize]) → ∃ k, calls <+: Callback.course k := by
    rintro ⟨k, rfl⟩
    exact ⟨k, (List.prefix_append_right_inj _).2 (by simp)⟩
  have hended : (∃ k, calls = Callback.course k) → ∃ k, calls <+: Callback.course k := by
    rintro ⟨k, rfl⟩
    exact ⟨k, List.prefix_rfl⟩
  have hnone : calls = [] → ∃ k, calls <+: Callback.course k := by
    rintro rfl
    exact ⟨0, List.nil_prefix⟩
  cases phase with
  | parked => exact hnone h
  | checking => exact hlooping h
  | leaving | gone => exact hended h
  | before callback =>
    cases callback with
    | startup => exact hnone h
    | iterate | finalize => exact hlooping h
    | teardown => exact hending h
  | inside callback =>
    cases callback with
    | startup => exact hlooping ⟨0, h⟩
    | iterate => exact hlooping h
    | finalize => exact hending h
    | teardown => exact hended h

/-- Where the body of a worker that was never launched stands. -/
def Phase.IsOutside : Phase → Prop
  | .parked | .leaving | .gone => True
  | _ => False

/-- A call is added to those that were made. -/
theorem Phase.Reached.call {calls : List Callback} {callback : Callback} (h : (Phase.before callback).Reached calls) :
    (Phase.inside callback).Reached (calls ++ [callback]) := by
  cases callback with
  | startup =>
    simp only [Phase.Reached] at h ⊢
    rw [h]
    rfl
  | iterate =>
    obtain ⟨k, rfl⟩ := h
    refine ⟨k + 1, ?_⟩
    rw [Callback.rounds, Callback.rounds, List.cons_append, List.replicate_succ']
  | finalize =>
    obtain ⟨k, rfl⟩ := h
    exact ⟨k, rfl⟩
  | teardown =>
    obtain ⟨k, rfl⟩ := h
    exact ⟨k, by rw [Callback.course, List.append_assoc]; rfl⟩

/-- The loop ends, or goes on, behind a call that returned. -/
theorem Phase.Reached.reply {calls : List Callback} {callback : Callback} {reply : Reply}
    (h : (Phase.inside callback).Reached calls) (hreply : reply ≠ .panicked) :
    (Worker.afterReply callback reply).Reached calls := by
  cases callback with
  | startup =>
    cases reply with
    | panicked => exact absurd rfl hreply
    | _ => exact ⟨0, h⟩
  | _ =>
    cases reply with
    | panicked => exact absurd rfl hreply
    | _ => exact h

namespace Worker

/-- The body neither starts again nor ends at once when a call returned. -/
theorem afterReply_ne (callback : Callback) (reply : Reply) :
    afterReply callback reply ≠ .parked ∧ afterReply callback reply ≠ .gone := by
  cases callback <;> cases reply <;> exact ⟨nofun, nofun⟩

/-- All that the body can do next. -/
inductive Goes (w : Worker) (reply : Reply) : Worker → Prop where
  /-- Cancelled, it ends without a call. -/
  | gives_up (phase : w.phase = .parked) (cancelled : w.control.cancelled = true) :
    Goes w reply { w with phase := .leaving }
  /-- Launched, it begins; the state is left as it is if a shutdown came first. -/
  | begins (phase : w.phase = .parked) (cancelled : w.control.cancelled = false)
    (launched : w.control.launched = true) :
    Goes w reply { w with
      control := { w.control with state := if w.control.stopRequested then w.control.state else .running }
      phase := .before .startup }
  | calls (callback : Callback) (phase : w.phase = .before callback) :
    Goes w reply { w with phase := .inside callback, calls := w.calls ++ [callback] }
  | returns (callback : Callback) (phase : w.phase = .inside callback) :
    Goes w reply { w with phase := afterReply callback reply }
  | checks (phase : w.phase = .checking) :
    Goes w reply { w with phase := .before (if w.control.state = .running then .iterate else .finalize) }
  | leaves (phase : w.phase = .leaving) :
    Goes w reply { w with control := { w.control with state := .none }, phase := .gone }

theorem goes_of_bodyStep {w w' : Worker} {reply : Reply} (h : w.bodyStep? reply = some w') : w.Goes reply w' := by
  unfold bodyStep? at h
  cases hphase : w.phase with
  | parked =>
    simp only [hphase] at h
    split at h
    · rename_i hcancelled
      cases h
      exact .gives_up hphase hcancelled
    rename_i hcancelled
    split at h
    · rename_i hlaunched
      cases h
      exact .begins hphase (by simpa using hcancelled) hlaunched
    · cases h
  | before callback =>
    simp only [hphase] at h
    cases h
    exact .calls callback hphase
  | inside callback =>
    simp only [hphase] at h
    cases h
    exact .returns callback hphase
  | checking =>
    simp only [hphase] at h
    cases h
    exact .checks hphase
  | leaving =>
    simp only [hphase] at h
    cases h
    exact .leaves hphase
  | gone =>
    simp only [hphase] at h
    cases h

/-- A launch is refused, or it is the first one. -/
theorem launch_cases (w : Worker) :
    (∃ failure, w.launch = (.error failure, w) ∧ (w.control.launched = true ∨ w.attached = false)) ∨
      (w.attached = true ∧ w.control.launched = false ∧
        w.launch = (.ok (), { w with control := { w.control with launched := true } })) := by
  unfold Worker.launch
  by_cases hattached : w.attached = true
  · by_cases hlaunched : w.control.launched = true
    · exact .inl ⟨.alreadyLaunched, by simp [hattached, hlaunched], .inl hlaunched⟩
    · exact .inr ⟨hattached, by simpa using hlaunched, by simp [hattached, hlaunched]⟩
  · exact .inl ⟨.notInitialized, by simp [hattached], .inr (by simpa using hattached)⟩

/-- A shutdown is the first one, or the owner has let go of the worker before. -/
theorem beginShutdown_cases (w : Worker) :
    (w.beginShutdown = (some .notRunning, { w with attached := false }) ∧
        (w.attached = false ∨ w.control.state = .none)) ∨
      (w.attached = true ∧ w.control.launched = false ∧ w.control.state = .stopped ∧ w.beginShutdown =
        (some .cancelled, { w with attached := false, control := { w.control with cancelled := true } })) ∨
      (w.attached = true ∧ w.control.state ≠ .none ∧ (w.control.state = .stopped → w.control.launched = true) ∧
        w.beginShutdown = (none, { w with
          attached := false
          control := { w.control with state := .stopped, stopRequested := true }
          awaiting := true })) := by
  unfold Worker.beginShutdown
  by_cases hattached : w.attached = true
  · by_cases hnone : w.control.state = .none
    · exact .inl ⟨by simp [hattached, hnone], .inr hnone⟩
    · by_cases hunlaunched : w.control.state = .stopped ∧ w.control.launched = false
      · exact .inr (.inl ⟨hattached, hunlaunched.2, hunlaunched.1, by simp [hattached, hunlaunched]⟩)
      · refine .inr (.inr ⟨hattached, hnone, by simpa using hunlaunched, by simp [hattached, hnone, hunlaunched]⟩)
  · have hlet : w.attached = false := by simpa using hattached
    refine .inl ⟨?_, .inl hlet⟩
    cases w
    simp_all

/-- Flags, phase and calls hang together. -/
structure Sound (w : Worker) : Prop where
  /-- The calls are those of the phase. -/
  reached : w.control.cancelled = false → w.phase.Reached w.calls
  /-- A worker that is cancelled was never launched, and calls nothing. -/
  cancelled : w.control.cancelled = true →
    w.control.launched = false ∧ w.attached = false ∧ w.calls = [] ∧ w.phase.IsOutside
  /-- Only a worker that was launched is asked to stop, by an owner that lets go of it. -/
  requested : w.control.stopRequested = true → w.control.launched = true ∧ w.attached = false
  /-- An owner that lets go of a worker that was launched and has not ended asks it to stop. -/
  released : w.attached = false → w.control.cancelled = true ∨ w.control.stopRequested = true ∨ w.phase = .gone
  begun : w.phase ≠ .parked → w.control.launched = true ∨ w.control.cancelled = true
  waits : w.phase = .parked → w.control.state = .stopped
  runs : w.control.state = .running → w.control.launched = true ∧ w.attached = true
  ended : w.control.state = .none ↔ w.phase = .gone

namespace Sound

variable {w : Worker}

theorem new : Sound {} := by
  constructor <;> simp [Phase.Reached]

/-- A worker that the owner still has is not cancelled. -/
theorem not_cancelled (h : w.Sound) (hattached : w.attached = true) : w.control.cancelled ≠ true := by
  intro hcancelled
  simp [(h.cancelled hcancelled).2.1] at hattached

/-- A body that is neither launched nor cancelled is where it began. -/
theorem parked_of_unlaunched (h : w.Sound) (hlaunched : w.control.launched = false)
    (hcancelled : w.control.cancelled ≠ true) : w.phase = .parked := by
  by_contra hphase
  rcases h.begun hphase with hl | hc
  · simp [hl] at hlaunched
  · exact hcancelled hc

/-- Nothing is called in a worker that was never launched. -/
theorem unlaunched (h : w.Sound) (hlaunched : w.control.launched = false) : w.calls = [] := by
  by_cases hcancelled : w.control.cancelled = true
  · exact (h.cancelled hcancelled).2.2.1
  have hreached := h.reached (by simpa using hcancelled)
  rwa [h.parked_of_unlaunched hlaunched hcancelled] at hreached

theorem launch (h : w.Sound) : w.launch.2.Sound := by
  rcases w.launch_cases with ⟨failure, hfailed, -⟩ | ⟨hattached, hlaunched, hok⟩
  · rw [hfailed]
    exact h
  · rw [hok]
    exact {
      reached := h.reached
      cancelled := fun hc => absurd hc (h.not_cancelled hattached)
      requested := fun hr => ⟨rfl, (h.requested hr).2⟩
      released := h.released
      begun := fun _ => .inl rfl
      waits := h.waits
      runs := fun hs => ⟨rfl, (h.runs hs).2⟩
      ended := h.ended }

theorem beginShutdown (h : w.Sound) : w.beginShutdown.2.Sound := by
  rcases w.beginShutdown_cases with
    ⟨hbegin, hlet⟩ | ⟨hattached, hlaunched, hstopped, hbegin⟩ | ⟨hattached, hnone, hlaunched, hbegin⟩
  all_goals rw [hbegin]
  · -- the owner has let go of the worker before, or the body has ended
    exact {
      reached := h.reached
      cancelled := fun hc => ⟨(h.cancelled hc).1, rfl, (h.cancelled hc).2.2⟩
      requested := fun hr => ⟨(h.requested hr).1, rfl⟩
      released := fun _ => hlet.elim h.released fun hs => .inr (.inr (h.ended.1 hs))
      begun := h.begun
      waits := h.waits
      runs := fun hs => by
        have ⟨hlaunched, hattached⟩ := h.runs hs
        rcases hlet with ha | hnone
        · simp [ha] at hattached
        · simp [hnone] at hs
      ended := h.ended }
  · -- never launched: the body is where it began
    have hparked := h.parked_of_unlaunched hlaunched (h.not_cancelled hattached)
    exact {
      reached := fun hc => by simp at hc
      cancelled := fun _ => ⟨hlaunched, rfl, h.unlaunched hlaunched, by simp [hparked, Phase.IsOutside]⟩
      requested := fun hr => by simp [(h.requested hr).1] at hlaunched
      released := fun _ => .inl rfl
      begun := fun _ => .inr rfl
      waits := h.waits
      runs := fun hs => by simp [hstopped] at hs
      ended := h.ended }
  · -- what is not launched is stopped, so this worker was launched
    have hlaunched : w.control.launched = true := by
      cases hstate : w.control.state with
      | none => exact absurd hstate hnone
      | running => exact (h.runs hstate).1
      | stopped => exact hlaunched hstate
    exact {
      reached := h.reached
      cancelled := fun hc => absurd hc (h.not_cancelled hattached)
      requested := fun _ => ⟨hlaunched, rfl⟩
      released := fun _ => .inr (.inl rfl)
      begun := h.begun
      waits := fun _ => rfl
      runs := fun hs => by simp at hs
      ended := by simpa [hnone] using h.ended }

theorem endShutdown (h : w.Sound) : w.endShutdown.2.Sound :=
  ⟨h.reached, h.cancelled, h.requested, h.released, h.begun, h.waits, h.runs, h.ended⟩

/-- A body that is neither before its start nor at its end goes on. -/
theorem goOn (h : w.Sound) (hinside : ¬ w.phase.IsOutside) {next : Phase} {calls : List Callback}
    (hreached : w.phase.Reached w.calls → next.Reached calls) (hparked : next ≠ .parked) (hgone : next ≠ .gone) :
    Sound { w with phase := next, calls := calls } := by
  have hcancelled : w.control.cancelled ≠ true := fun hc => hinside (h.cancelled hc).2.2.2
  have hbegun : w.phase ≠ .parked := fun hp => by simp [hp, Phase.IsOutside] at hinside
  have hended : w.phase ≠ .gone := fun hp => by simp [hp, Phase.IsOutside] at hinside
  exact {
    reached := fun hc => hreached (h.reached hc)
    cancelled := fun hc => absurd hc hcancelled
    requested := h.requested
    released := fun hr => (h.released hr).imp_right fun hs => hs.imp_right fun hp => absurd hp hended
    begun := fun _ => h.begun hbegun
    waits := fun hp => absurd hp hparked
    runs := h.runs
    ended := by simpa [hended, hgone] using h.ended }

/-- A body that is cancelled before it begins ends without a call. -/
theorem giveUp (h : w.Sound) (hphase : w.phase = .parked) (hcancelled : w.control.cancelled = true) :
    Sound { w with phase := .leaving } := by
  obtain ⟨hlaunched, hattached, hcalls, -⟩ := h.cancelled hcancelled
  have hstopped := h.waits hphase
  exact {
    reached := fun hc => by simp [hcancelled] at hc
    cancelled := fun _ => ⟨hlaunched, hattached, hcalls, trivial⟩
    requested := h.requested
    released := fun _ => .inl hcancelled
    begun := fun _ => .inr hcancelled
    waits := fun hp => by cases hp
    runs := fun hs => by simp [hstopped] at hs
    ended := by simp [hstopped] }

/-- A body that is launched begins, and runs unless a shutdown came first. -/
theorem start (h : w.Sound) (hphase : w.phase = .parked) (hcancelled : w.control.cancelled = false)
    (hlaunched : w.control.launched = true) :
    Sound { w with
      control := { w.control with state := if w.control.stopRequested then w.control.state else .running }
      phase := .before .startup } := by
  have hstopped := h.waits hphase
  have hcalls := h.reached hcancelled
  rw [hphase] at hcalls
  have hstill : w.control.cancelled ≠ true := by simp [hcancelled]
  exact {
    reached := fun _ => hcalls
    cancelled := fun hc => absurd hc hstill
    requested := h.requested
    released := fun hr => (h.released hr).imp_right fun hs => hs.imp_right fun hp => by simp [hphase] at hp
    begun := fun _ => .inl hlaunched
    waits := fun hp => by cases hp
    runs := fun hs => by
      refine ⟨hlaunched, ?_⟩
      -- an owner that let go has cancelled the body or stopped it, or the body had ended
      by_contra ha
      rcases h.released (by simpa using ha) with hc | hr | hp
      · exact hstill hc
      · simp [hr, hstopped] at hs
      · simp [hphase] at hp
    ended := by split <;> simp [hstopped] }

/-- A body ends behind its last call, or without any. -/
theorem leave (h : w.Sound) (hphase : w.phase = .leaving) :
    Sound { w with control := { w.control with state := .none }, phase := .gone } := by
  have hbegun := h.begun (by simp [hphase])
  have hreached := h.reached
  rw [hphase] at hreached
  exact {
    reached := hreached
    cancelled := fun hc =>
      have ⟨hlaunched, hattached, hcalls, _⟩ := h.cancelled hc
      ⟨hlaunched, hattached, hcalls, trivial⟩
    requested := h.requested
    released := fun _ => .inr (.inr rfl)
    begun := fun _ => hbegun
    waits := fun hp => by cases hp
    runs := fun hs => by cases hs
    ended := iff_of_true rfl rfl }

/-- The calls keep up with the body, unless an entry point panics. -/
theorem bodyStep {w' : Worker} {reply : Reply} (h : w.Sound) (hreply : reply ≠ .panicked)
    (hstep : w.bodyStep? reply = some w') : w'.Sound := by
  cases goes_of_bodyStep hstep with
  | gives_up hphase hcancelled => exact h.giveUp hphase hcancelled
  | begins hphase hcancelled hlaunched => exact h.start hphase hcancelled hlaunched
  | calls callback hphase =>
    exact h.goOn (by simp [hphase, Phase.IsOutside]) (fun hr => (hphase ▸ hr).call) nofun nofun
  | returns callback hphase =>
    have hnext := afterReply_ne callback reply
    exact h.goOn (by simp [hphase, Phase.IsOutside]) (fun hr => (hphase ▸ hr).reply hreply) hnext.1 hnext.2
  | checks hphase =>
    refine h.goOn (by simp [hphase, Phase.IsOutside]) (fun hr => ?_) nofun nofun
    rw [hphase] at hr
    split <;> exact hr
  | leaves hphase => exact h.leave hphase

end Sound

end Worker

end Patchbay
