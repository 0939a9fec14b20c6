import Patchbay.Network.Consumer
import Patchbay.Network.Lifetime
import Patchbay.Worker.Basic

/-!
# `Patchbay.Worker.Script` — a consumer that follows a script

A scripted consumer writes down which of its entry points are called. At startup it plugs what its script
names and takes some memory; in an iteration it waits to be told how to go on; at the end it unplugs what its
script names. Released, it goes round its loop silently until it is stopped.

## Contents
* `Startup`, `Script` — what the consumer does; `Command` — what it can be told in an iteration;
* `LogEntry` — what it writes down;
* `Performer` — the consumer on its worker; `Performer.settle` — the body's steps until it waits or has ended;
* `Performer.launch`, `Performer.tell`, `Performer.release`, `Performer.shutdown`, `Performer.drop`.
-/

namespace Patchbay

open Budget (Block)

/-- How a scripted consumer starts. -/
inductive Startup where
  | normal
  | failing
  | panicking
  /-- Only iterations are written down, and the first one completes the loop. -/
  | minimal
deriving DecidableEq, Repr

/-- What a scripted consumer does. -/
structure Script where
  startup : Startup := .normal
  /-- Name, id and address of each interface to plug at startup. -/
  plugs : List (String × Nat × Mac) := []
  /-- Bytes to take at startup and keep until the end. -/
  hold : Option Nat := none
  /-- Ids to unplug at teardown. -/
  unplugs : List Nat := []

/-- What a scripted consumer can be told in an iteration. -/
inductive Command where
  | continue
  | complete
  | panic
deriving DecidableEq, Repr

/-- What a scripted consumer writes down. -/
inductive LogEntry where
  | startup
  | plugged (id : Nat) (up : Bool)
  | refused (cause : NetFailure)
  | run
  | finalize
  | teardown
deriving DecidableEq, Repr

/-- A scripted consumer on its worker. -/
structure Performer where
  script : Script
  /-- How long a shutdown waits for the body, in milliseconds. -/
  waitMs : Nat := 1000
  worker : Worker := {}
  /-- The splice that the consumer works with, as long as it has it. -/
  splice : Option Nat := none
  /-- The memory that the consumer keeps. -/
  held : Option Block := none
  released : Bool := false
  /-- How the entry point that is waited for returns, once that is decided. -/
  reply : Option Reply := none
  log : List LogEntry := []

namespace Performer

/-- The performer with one more line in its log. -/
def write (p : Performer) (e : LogEntry) : Performer :=
  { p with log := p.log ++ [e] }

/-- Plugs interfaces in turn until one is refused; answers whether none was. -/
def plugEach (p : Performer) (n : Network) (key : Nat) :
    List (String × Nat × Mac) → Bool × Performer × Network
  | [] => (true, p, n)
  | (name, id, mac) :: rest =>
    match n.plug key name id mac with
    | (.ok up, n) => plugEach (p.write (.plugged id up)) n key rest
    | (.error e, n) => (false, p.write (.refused e), n)

/-- Takes the memory that the script names; answers whether it was granted. -/
def takeMemory (p : Performer) (n : Network) (key : Nat) : Bool × Performer × Network :=
  match p.script.hold with
  | none => (true, p, n)
  | some size =>
    match n.buffer key size with
    | (.ok block, n) => (true, { p with held := some block }, n)
    | (.error _, n) => (false, p, n)

/-- What the startup does; answers how it returns. -/
def start (p : Performer) (n : Network) : Reply × Performer × Network :=
  match p.script.startup with
  | .minimal => (.done, p, n)
  | .failing => (.failed, p.write .startup, n)
  | .panicking => (.panicked, p.write .startup, n)
  | .normal =>
    let p := p.write .startup
    match p.splice with
    | none => (.done, p, n)
    | some key =>
      match p.plugEach n key p.script.plugs with
      | (false, p, n) => (.failed, p, n)
      | (true, p, n) =>
        let (granted, p, n) := p.takeMemory n key
        (if granted then .done else .failed, p, n)

/-- What the teardown does. -/
def finish (p : Performer) (n : Network) : Network :=
  match p.splice with
  | none => n
  | some key => p.script.unplugs.foldl (fun n id => (n.unplug key id).2) n

/-- What an entry point does when it is called; an iteration that waits to be told has no reply yet. -/
def perform (p : Performer) (n : Network) : Callback → Performer × Network
  | .startup =>
    let (reply, p, n) := p.start n
    ({ p with reply := some reply }, n)
  | .iterate =>
    if p.script.startup = .minimal then ({ p.write .run with reply := some .completed }, n)
    else if p.released then (p, n)
    else (p.write .run, n)
  | .finalize =>
    let p := if p.script.startup = .minimal then p else p.write .finalize
    ({ p with reply := some .done }, n)
  | .teardown =>
    if p.script.startup = .minimal then ({ p with reply := some .done }, n)
    else ({ p.write .teardown with reply := some .done }, p.finish n)

/-- The end of the consumer: its memory and its splice go back. -/
def vanish (p : Performer) (n : Network) : Performer × Network :=
  let n := match p.held with
    | none => n
    | some block => n.setMemory (n.memory.free block)
  let n := match p.splice with
    | none => n
    | some key => n.dropSplice key
  ({ p with held := none, splice := none }, n)

/-- The performer after a step of its body. -/
def stepBody (p : Performer) (reply : Reply) : Performer :=
  { p with worker := (p.worker.bodyStep? reply).getD p.worker, reply := none }

/-- Says whether the body waits: parked, ended, in an iteration that waits to be told, or in one that goes
round until it is stopped. -/
def isSettled (p : Performer) : Bool :=
  match p.worker.phase with
  | .parked => !(p.worker.control.launched || p.worker.control.cancelled)
  | .inside _ => p.reply.isNone && !(p.released && p.worker.state != .running)
  | .gone => true
  | _ => false

/-- One step of the body and what the consumer does in it. -/
def advance (p : Performer) (n : Network) : Performer × Network :=
  match p.worker.phase with
  | .before callback => (p.stepBody .done).perform n callback
  | .inside _ => (p.stepBody (p.reply.getD .done), n)
  | .leaving => (p.stepBody .done).vanish n
  | _ => (p.stepBody .done, n)

/-- At most `fuel` steps of the body, until it waits. -/
def settleWithin : Nat → Performer → Network → Performer × Network
  | 0, p, n => (p, n)
  | fuel + 1, p, n =>
    if p.isSettled then (p, n)
    else
      let (p, n) := p.advance n
      settleWithin fuel p n

/-- More steps than a body takes between two waits. -/
def settleSteps : Nat := 32

/-- The body's steps until it waits. -/
def settle (p : Performer) (n : Network) : Performer × Network :=
  settleWithin settleSteps p n

/-! ## The owner -/

/-- Launches the worker and lets its body settle. -/
def launch (p : Performer) (n : Network) : Except WorkerFailure Unit × Performer × Network :=
  let (answer, worker) := p.worker.launch
  let (p, n) := { p with worker := worker }.settle n
  (answer, p, n)

/-- Says whether the consumer waits to be told. -/
def isWaiting (p : Performer) : Bool :=
  p.worker.phase = .inside .iterate && !p.released

/-- Tells a waiting consumer how to go on; answers whether it was waiting. -/
def tell (p : Performer) (n : Network) (c : Command) : Bool × Performer × Network :=
  if p.isWaiting then
    let reply := match c with
      | .continue => Reply.done
      | .complete => .completed
      | .panic => .panicked
    let (p, n) := { p with reply := some reply }.settle n
    (true, p, n)
  else (false, p, n)

/-- Lets the consumer go round its loop silently from now on; an iteration that waits goes on. -/
def release (p : Performer) (n : Network) : Performer × Network :=
  let reply := if p.isWaiting then some Reply.done else p.reply
  { p with released := true, reply := reply }.settle n

/-- Ends the wait of a shutdown. -/
def endWait (p : Performer) : Shutdown × Performer :=
  let (outcome, worker) := p.worker.endShutdown
  (outcome, { p with worker := worker })

/-- Shuts the worker down. A wait of no time is over before the body takes a step; any other is long enough for
a body that does not wait itself. -/
def shutdown (p : Performer) (n : Network) : Shutdown × Performer × Network :=
  let (answer, worker) := p.worker.beginShutdown
  let p := { p with worker := worker }
  match answer with
  | some outcome => (outcome, p.settle n)
  | none =>
    if p.waitMs = 0 then
      let (outcome, p) := p.endWait
      (outcome, p.settle n)
    else
      let (p, n) := p.settle n
      let (outcome, p) := p.endWait
      (outcome, p, n)

/-- The end of the worker: the consumer is released and shut down. -/
def drop (p : Performer) (n : Network) : Performer × Network :=
  let (p, n) := p.release n
  (p.shutdown n).2

end Performer

end Patchbay
