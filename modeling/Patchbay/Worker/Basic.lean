/-!
# `Patchbay.Worker.Basic` — the life of a hosted consumer

A worker runs a consumer on a thread of its own. Its owner launches it and shuts it down; the body on the
thread calls the consumer's entry points. The two sides share a few flags under a lock, and each locked section
is one step here, so that every way in which they can interleave is a sequence of steps.

## Contents
* `WorkerState`, `Control` — what the two sides share;
* `Callback`, `Reply` — the consumer's entry points and how they return; `Phase` — where the body stands;
* `Worker`, `Worker.bodyStep?` — the next step of the body;
* `Worker.create` — a thread for the body, if the system has one;
* `Worker.launch`, `Worker.beginShutdown`, `Worker.endShutdown` — the steps of the owner.
-/

namespace Patchbay

/-- What the owner sees of the body. -/
inductive WorkerState where
  /-- The body has ended. -/
  | none
  /-- The run loop goes on. -/
  | running
  /-- Not started yet, or told to stop. -/
  | stopped
deriving DecidableEq, Repr

/-- The flags that owner and body share. -/
structure Control where
  state : WorkerState := .stopped
  launched : Bool := false
  cancelled : Bool := false
  stopRequested : Bool := false
deriving DecidableEq, Repr

/-- The consumer's entry points. -/
inductive Callback where
  | startup
  | iterate
  | finalize
  | teardown
deriving DecidableEq, Repr

/-- How an entry point returns. -/
inductive Reply where
  /-- As usual; the run loop goes on. -/
  | done
  /-- The run loop is complete. -/
  | completed
  /-- With an error. -/
  | failed
  /-- Not at all. -/
  | panicked
deriving DecidableEq, Repr

/-- Where the body stands. -/
inductive Phase where
  /-- Waits for the launch or the end of an unlaunched worker. -/
  | parked
  /-- Will call an entry point next. -/
  | before (callback : Callback)
  /-- Waits for an entry point to return. -/
  | inside (callback : Callback)
  /-- Will look next whether the run loop goes on. -/
  | checking
  /-- Will end next. -/
  | leaving
  | gone
deriving DecidableEq, Repr

/-- Why the owner is refused. -/
inductive WorkerFailure where
  /-- The system gives the body no thread, for a cause that it tells. -/
  | spawn (cause : String)
  | alreadyLaunched
  | notInitialized
deriving DecidableEq, Repr

/-- The wording of a refusal. -/
def WorkerFailure.message : WorkerFailure → String
  | .spawn cause => "worker thread could not be created: " ++ cause
  | .alreadyLaunched => "worker was already launched"
  | .notInitialized => "worker is not initialized"

/-- How a shutdown ends. -/
inductive Shutdown where
  /-- The body had ended before, or a shutdown came first. -/
  | notRunning
  /-- The body ended in time. -/
  | stopped
  /-- The worker was never launched. -/
  | cancelled
  /-- The body did not end in time and is left to itself. -/
  | timedOut
deriving DecidableEq, Repr

/-- A worker: the shared flags, the body, and whether the owner still has the thread. -/
structure Worker where
  control : Control := {}
  phase : Phase := .parked
  /-- Whether the owner still has the thread. -/
  attached : Bool := true
  /-- Whether the owner waits in a shutdown. -/
  awaiting : Bool := false
  /-- The entry points that were called, in order. -/
  calls : List Callback := []
deriving DecidableEq, Repr

namespace Worker

/-- What the owner sees of the body. -/
def state (w : Worker) : WorkerState := w.control.state

/-! ## The body -/

/-- Where the body stands once an entry point has returned. -/
def afterReply : Callback → Reply → Phase
  | _, .panicked => .leaving
  | .startup, .failed => .before .finalize
  | .startup, _ => .checking
  | .iterate, .completed => .before .finalize
  | .iterate, _ => .checking
  | .finalize, _ => .before .teardown
  | .teardown, _ => .leaving

/-- The worker after the body's next step, where an entry point that is waited for returns `reply`. A parked
body that has nothing to do, and one that has ended, have no next step. -/
def bodyStep? (w : Worker) (reply : Reply) : Option Worker :=
  match w.phase with
  | .parked =>
    if w.control.cancelled then some { w with phase := .leaving }
    else if w.control.launched then
      let state := if w.control.stopRequested then w.control.state else .running
      some { w with control := { w.control with state := state }, phase := .before .startup }
    else none
  | .before callback => some { w with phase := .inside callback, calls := w.calls ++ [callback] }
  | .inside callback => some { w with phase := afterReply callback reply }
  | .checking =>
    some { w with phase := .before (if w.control.state = .running then .iterate else .finalize) }
  | .leaving => some { w with control := { w.control with state := .none }, phase := .gone }
  | .gone => none

/-! ## The owner -/

/-- A thread can have the name: the character zero does not stand in it. -/
def Nameable (name : String) : Prop := Char.ofNat 0 ∉ name.toList

instance (name : String) : Decidable (Nameable name) :=
  inferInstanceAs (Decidable (Char.ofNat 0 ∉ name.toList))

/-- Creates a worker, whose body waits on a thread of that name; the system may refuse the thread and tell the cause.
With a name that no thread can have the creation panics, and nothing is answered. -/
def create (name : String) (refusal : Option String) : Option (Except WorkerFailure Worker) :=
  if Nameable name then
    match refusal with
    | some cause => some (.error (.spawn cause))
    | none => some (.ok {})
  else none

/-- Lets the body begin. -/
def launch (w : Worker) : Except WorkerFailure Unit × Worker :=
  if !w.attached then (.error .notInitialized, w)
  else if w.control.launched then (.error .alreadyLaunched, w)
  else (.ok (), { w with control := { w.control with launched := true } })

/-- Begins a shutdown; answers its end, or nothing if the owner has to wait for the body. -/
def beginShutdown (w : Worker) : Option Shutdown × Worker :=
  if !w.attached then (some .notRunning, w)
  else
    let w := { w with attached := false }
    if w.control.state = .none then (some .notRunning, w)
    else if w.control.state = .stopped ∧ w.control.launched = false then
      (some .cancelled, { w with control := { w.control with cancelled := true } })
    else
      (none, { w with
        control := { w.control with state := .stopped, stopRequested := true }
        awaiting := true })

/-- Ends the wait of a shutdown, with what the owner sees of the body by then. -/
def endShutdown (w : Worker) : Shutdown × Worker :=
  (if w.control.state = .none then .stopped else .timedOut, { w with awaiting := false })

end Worker

end Patchbay
