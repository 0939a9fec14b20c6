import Patchbay.Budget.Page
import Patchbay.Clock
import Patchbay.Settings.Source
import Patchbay.Text.Blank
import Patchbay.Text.Number

/-!
# `Patchbay.Settings` — what a module instance runs with

Each setting is looked up under the instance's name first and under the global name second. A number that
cannot be read is passed over as if it were absent; a text is taken as it stands.

## Contents
* `lookup` and `lookupNumber` — the two-level look-up of a text and of a number;
* `flag` — the texts that switch something on;
* `Settings` and `Settings.resolve` — the settings of one instance.
-/

namespace Patchbay

namespace Settings

/-- The text of a setting: the instance's own, else the global one. -/
def lookup (source : Source) (name key : String) : Option String :=
  source (ownName name key) <|> source (sharedName key)

/-- The number that a configured text spells, blanks around it dropped. -/
def number? (bound : Nat) (text : String) : Option Nat :=
  Text.natBelow? bound (Text.trim text.toList)

/-- The number of a setting: the instance's own if it can be read, else the global one if that can. -/
def lookupNumber (bound : Nat) (source : Source) (name key : String) : Option Nat :=
  ((source (ownName name key)).bind (number? bound)) <|>
    ((source (sharedName key)).bind (number? bound))

/-- The texts, in any case and with blanks around them, that switch something on. -/
def flag (text : String) : Bool :=
  ["1", "true", "yes", "on"].contains
    (String.ofList ((Text.trim text.toList).map Char.toLower))

/-- The shutdown wait that is used where none is configured, in milliseconds. -/
def defaultShutdownMs : Nat := 1000

end Settings

/-- The settings of one module instance, fixed when it loads. -/
structure Settings where
  /-- The instance they were resolved for. -/
  name : String
  /-- The memory ceiling in bytes. -/
  ceiling : Nat
  /-- Free text for the consumer. -/
  parameters : Option String
  /-- Whether live allocations are recorded. -/
  tracking : Bool
  /-- How long a shutdown waits for the consumer, in milliseconds. -/
  shutdownMs : Nat
  /-- The host's tick rate. -/
  rate : Nat
deriving DecidableEq, Repr

/-- The settings that a source holds for an instance. -/
def Settings.resolve (source : Settings.Source) (name : String) : Settings where
  name := name
  ceiling := Budget.ceilingFor (lookupNumber Text.bound64 source name "maxmem")
  parameters := lookup source name "rtparams"
  tracking := (lookup source name "memtrack").any flag
  shutdownMs := (lookupNumber Text.bound64 source name "shutdown_timeout_ms").getD defaultShutdownMs
  rate := ((lookupNumber Text.bound32 source name "hz").filter (0 < ·)).getD Clock.defaultRate

end Patchbay
