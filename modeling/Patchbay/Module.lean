import Patchbay.Settings
import Patchbay.Worker.Script

/-!
# `Patchbay.Module` — loading and unloading

A module ties a budget, a splice and a worker together. Loading it resolves its settings, makes a budget, starts
a splice and launches a consumer; unloading it shuts the worker down, tears the splice down and looks for leaks.
A consumer that gets no thread goes at once, and the splice with it. One that does not stop in time is left to
itself, and keeps what it holds until it ends.

## Contents
* `ModuleEvent`, `ModuleFailure`; `Loaded`, `Module`, `UnloadReport`;
* `Module.load`, `Module.unload`, `Module.handle`;
* `Module.tell`, `Module.release`, `Module.drop` — the consumer's side and the end.
-/

namespace Patchbay

open Budget (LeakReport)

/-- What a module can be asked for. -/
inductive ModuleEvent where
  | load
  | unload
  | quiesce
  | shutdown
deriving DecidableEq, Repr

/-- The name of an event in messages. -/
def ModuleEvent.label : ModuleEvent → String
  | .load => "Load"
  | .unload => "Unload"
  | .quiesce => "Quiesce"
  | .shutdown => "Shutdown"

/-- Why a module is refused something. -/
inductive ModuleFailure where
  /-- It is loaded already, or it is not loaded. -/
  | alreadyActive
  | unsupported (event : ModuleEvent)
  | worker (cause : WorkerFailure)
deriving DecidableEq, Repr

/-- The wording of a refusal. -/
def ModuleFailure.message : ModuleFailure → String
  | .alreadyActive => "module is already in the requested state"
  | .unsupported event => "unsupported module event " ++ event.label
  | .worker cause => cause.message

/-- What a loaded module has. -/
structure Loaded where
  settings : Settings
  budget : Nat
  splice : Nat
deriving DecidableEq, Repr

/-- What is left when a module is unloaded. -/
structure UnloadReport where
  shutdown : Shutdown
  leaks : LeakReport
  outstanding : Nat
deriving DecidableEq

/-- A module instance with its consumer's script. -/
structure Module where
  name : String
  source : Settings.Source
  script : Script := {}
  /-- The cause for which the system refuses the next thread, if it does. -/
  refusal : Option String := none
  loaded : Option Loaded := none
  /-- The consumer of the latest load. -/
  performer : Option Performer := none
  /-- Consumers of earlier loads that did not stop in time. -/
  strays : List Performer := []

namespace Module

/-- What the owner sees of the consumer's worker; a module that is not loaded has none. -/
def workerState (m : Module) : WorkerState :=
  match m.loaded, m.performer with
  | some _, some p => p.worker.state
  | _, _ => .none

/-- The name of the consumer's thread. -/
def threadName (m : Module) : String := "netsplice-" ++ m.name

/-- Loads the module: settings, budget, splice, consumer. The consumer and the load have a handle on the splice each;
if there is no thread, both go, the consumer's first. A load that panics answers nothing. -/
def load (m : Module) (n : Network) : Option (Except ModuleFailure Unit) × Module × Network :=
  match m.loaded with
  | some _ => (some (.error .alreadyActive), m, n)
  | none =>
    let settings := Settings.resolve m.source m.name
    let (budget, n) := n.onMemory fun mem => mem.addBudget settings.ceiling settings.tracking
    let (splice, n) := n.startSplice budget
    let n := n.holdSplice splice
    match Worker.create m.threadName m.refusal with
    | none => (none, m, (n.dropSplice splice).dropSplice splice)
    | some (.error cause) => (some (.error (.worker cause)), m, (n.dropSplice splice).dropSplice splice)
    | some (.ok worker) =>
      let performer : Performer :=
        { script := m.script, waitMs := settings.shutdownMs, worker := worker, splice := some splice }
      let (answer, performer, n) := performer.launch n
      let m := { m with performer := some performer, strays := m.strays ++ m.performer.toList }
      match answer with
      | .error cause =>
        let (_, performer, n) := performer.shutdown n
        (some (.error (.worker cause)), { m with performer := some performer }, n.dropSplice splice)
      | .ok () =>
        (some (.ok ()), { m with loaded := some { settings := settings, budget := budget, splice := splice } }, n)

/-- Unloads the module: worker, splice, leak check. -/
def unload (m : Module) (n : Network) : Except ModuleFailure UnloadReport × Module × Network :=
  match m.loaded, m.performer with
  | some l, some p =>
    let (outcome, p, n) := p.shutdown n
    let n := (n.tearDown l.splice).dropSplice l.splice
    let (leaks, n) := n.onMemory fun mem => mem.collectLeaks l.budget
    (.ok { shutdown := outcome, leaks := leaks, outstanding := n.memory.outstanding l.budget },
      { m with loaded := none, performer := some p }, n)
  | _, _ => (.error .alreadyActive, m, n)

/-- Carries out an event; answers nothing if that panics. -/
def handle (m : Module) (n : Network) : ModuleEvent → Option (Except ModuleFailure Unit) × Module × Network
  | .load => m.load n
  | .unload =>
    let (answer, m, n) := m.unload n
    (some (answer.map fun _ => ()), m, n)
  | event => (some (.error (.unsupported event)), m, n)

/-! ## The consumer -/

/-- Tells the consumer of the latest load how to go on; answers whether it was waiting. -/
def tell (m : Module) (n : Network) (c : Command) : Bool × Module × Network :=
  match m.performer with
  | none => (false, m, n)
  | some p =>
    let (was, p, n) := p.tell n c
    (was, { m with performer := some p }, n)

/-- Releases the consumer of the latest load. -/
def release (m : Module) (n : Network) : Module × Network :=
  match m.performer with
  | none => (m, n)
  | some p =>
    let (p, n) := p.release n
    ({ m with performer := some p }, n)

/-- The end of a module: its consumers are released and it is unloaded. -/
def drop (m : Module) (n : Network) : Network :=
  let n := m.strays.foldl (fun n p => (p.release n).2) n
  let (m, n) := m.release n
  (m.unload n).2.2

end Module

end Patchbay
