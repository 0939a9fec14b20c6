import Patchbay.Simulation

/-!
# `Patchbay.CommandLine` — the options of a simulation run

Options are long, take a value, and are given at most once. The value stands in the next argument or behind an
equals sign; a next argument that begins with a dash is no value, unless it is the dash alone. Values are read
when the next option or the end of the arguments shows that they are complete, so of two faults the earlier one
counts, and help that is asked for behind a fault is not given.

## Contents
* `Request` — what the arguments ask for;
* `OptionKey` — the options; `Given` — their values as far as they were read;
* `request` — the arguments read; `run` — the arguments carried out; `Ending` — what they come to.
-/

namespace Patchbay.CommandLine

open Simulation (Options Outcome)

/-- What the arguments ask for. -/
inductive Request where
  | run (options : Options)
  | help
  | misuse

/-- The options. -/
inductive OptionKey where
  | instanceName
  | interface
  | mac
  | frames
  | payload
  | timeout
deriving DecidableEq, Repr

/-- The option with a name. -/
def OptionKey.ofName? (name : String) : Option OptionKey :=
  match name with
  | "instance" => some .instanceName
  | "ifname" => some .interface
  | "mac" => some .mac
  | "frames" => some .frames
  | "payload" => some .payload
  | "timeout-ms" => some .timeout
  | _ => none

/-- The options read so far. -/
structure Given where
  options : Options := {}
  keys : List OptionKey := []

namespace Given

/-- A value in the place of an option, if it can be read as one. -/
def place? (o : Options) (key : OptionKey) (value : String) : Option Options :=
  let number := Text.natBelow? Text.bound64 value.toList
  match key with
  | .instanceName => some { o with name := value }
  | .interface => some { o with interface := value }
  | .mac => (Mac.parse? value).map fun mac => { o with mac := mac }
  | .frames => number.map fun k => { o with frames := k }
  | .payload => number.map fun k => { o with payload := k }
  | .timeout => number.map fun k => { o with timeoutMs := k }

/-- The options with one more value; a repeated option and a value that cannot be read are faults. -/
def add? (g : Given) (key : OptionKey) (value : String) : Option Given :=
  if g.keys.contains key then none
  else (place? g.options key value).map fun o => ⟨o, key :: g.keys⟩

end Given

/-- What one argument is. -/
inductive Argument where
  /-- Two dashes alone. -/
  | escape
  /-- A long option, possibly with a value behind an equals sign. -/
  | long (name : String) (value : Option String)
  /-- A dash and something behind it, by its first character. -/
  | short (flag : Char)
  | word (text : String)
deriving DecidableEq, Repr

/-- A text up to its first equals sign, and what is behind it. -/
def splitValue (cs : List Char) : String × Option String :=
  match cs.dropWhile (· ≠ '=') with
  | [] => (String.ofList cs, none)
  | _ :: value => (String.ofList (cs.takeWhile (· ≠ '=')), some (String.ofList value))

/-- What an argument is. -/
def Argument.of (text : String) : Argument :=
  match text.toList with
  | ['-', '-'] => .escape
  | '-' :: '-' :: rest => let (name, value) := splitValue rest; .long name value
  | '-' :: flag :: _ => .short flag
  | _ => .word text

/-- Whether the arguments are at an option that still lacks its value. -/
abbrev Open := Option OptionKey

/-- The arguments read from a place between options or behind an option that lacks its value. -/
def requestFrom (g : Given) : Open → List Argument → Request
  | none, [] => .run g.options
  | some _, [] => .misuse
  | some key, .word value :: rest =>
    match g.add? key value with
    | some g => requestFrom g none rest
    | none => .misuse
  | some _, _ :: _ => .misuse
  | none, .escape :: rest => if rest.isEmpty then .run g.options else .misuse
  | none, .word _ :: _ => .misuse
  | none, .short flag :: _ => if flag = 'h' then .help else .misuse
  | none, .long name value :: rest =>
    if name = "help" then (if value.isNone then .help else .misuse)
    else
      match OptionKey.ofName? name, value with
      | none, _ => .misuse
      | some key, none => requestFrom g (some key) rest
      | some key, some value =>
        match g.add? key value with
        | some g => requestFrom g none rest
        | none => .misuse

/-- What the arguments ask for. -/
def request (arguments : List String) : Request :=
  requestFrom {} none (arguments.map Argument.of)

/-- What the arguments come to. -/
inductive Ending where
  | helped
  | misused
  | ran (outcome : Outcome)
deriving DecidableEq, Repr

namespace Ending

/-- The exit code; an aborted run has none. -/
def code : Ending → Option Nat
  | .helped => some 0
  | .misused => some 2
  | .ran outcome => outcome.code

/-- The summary of the run, if there was one and it got so far. -/
def line : Ending → Option String
  | .ran outcome => outcome.line
  | _ => none

end Ending

/-- Carries the arguments out with the settings of an environment. -/
def run (arguments : List String) (environment : Settings.Source) : Ending :=
  match request arguments with
  | .help => .helped
  | .misuse => .misused
  | .run o => .ran (Simulation.simulate o (Settings.resolve (.ofEnvironment environment) o.name))

end Patchbay.CommandLine
