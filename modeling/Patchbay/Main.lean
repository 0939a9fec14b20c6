import Patchbay.CommandLine

/-!
# `Patchbay.Main` — the program

Runs the simulation that the arguments ask for, prints its summary and exits with its code.

## Contents
* `usage` — how the program is called; `settingNames` — the variables that an instance is configured with;
* `abortStatus` — the status of a run that aborts;
* `readEnvironment`, `execute` — the only parts of the library that read and print.
-/

namespace Patchbay.CommandLine

/-- How the program is called. -/
def usage : String :=
  "Usage: patchbay [--instance NAME] [--ifname NAME] [--mac MAC] [--frames N] [--payload N] " ++
    "[--timeout-ms N]"

/-- The environment's names of the settings of an instance, its own before the shared ones. -/
def settingNames (name : String) : List String :=
  let keys := ["maxmem", "rtparams", "memtrack", "shutdown_timeout_ms", "hz"]
  keys.map (Settings.variableName <| Settings.ownName name ·) ++
    keys.map (Settings.variableName <| Settings.sharedName ·)

/-- The texts that the environment holds for the settings of an instance. -/
def readEnvironment (name : String) : IO Settings.Source := do
  let found ← (settingNames name).filterMapM fun key => do
    return (← IO.getEnv key).map fun text => (key, text)
  return Settings.Source.ofPairs found

/-- The status that stands for an abort where one has to be given: a hundred and twenty-eight and the number of
the abort signal. -/
def abortStatus : Nat := 128 + 6

/-- Carries the arguments out: prints the summary of the run and what is wrong with it, or how the program
is called. -/
def execute (arguments : List String) : IO UInt32 := do
  let environment ← match request arguments with
    | .run options => readEnvironment options.name
    | _ => pure fun _ => none
  let ending := run arguments environment
  match ending with
  | .helped => IO.println usage
  | .misused => IO.eprintln usage
  | .ran outcome =>
    if let some line := outcome.line then IO.println line
    if let some fault := outcome.fault then IO.eprintln ("Error: " ++ fault.message)
  return UInt32.ofNat (ending.code.getD abortStatus)

end Patchbay.CommandLine

def main (arguments : List String) : IO UInt32 :=
  Patchbay.CommandLine.execute arguments
