/-!
# `Patchbay.Text.Number` — whole numbers as they are typed

A whole number is an optional plus sign followed by at least one ASCII digit. The type it is read for has a
bound, and a value at or above the bound is no number of that type; leading zeros do not count against it.

## Contents
* `digit?` and `hexDigit?` — the value of one decimal or hexadecimal digit;
* `digits?` — the value of a run of decimal digits;
* `natBelow?` — a whole number below a bound; `bound32`, `bound64` — the bounds of the numbers that are read.
-/

namespace Patchbay.Text

/-- The value of an ASCII decimal digit. -/
def digit? (c : Char) : Option Nat :=
  if '0' ≤ c ∧ c ≤ '9' then some (c.toNat - '0'.toNat) else none

/-- The value of an ASCII hexadecimal digit in either case. -/
def hexDigit? (c : Char) : Option Nat :=
  if '0' ≤ c ∧ c ≤ '9' then some (c.toNat - '0'.toNat)
  else if 'a' ≤ c ∧ c ≤ 'f' then some (c.toNat - 'a'.toNat + 10)
  else if 'A' ≤ c ∧ c ≤ 'F' then some (c.toNat - 'A'.toNat + 10)
  else none

/-- The value of a run of decimal digits behind the value `acc` read so far. -/
def digitsFrom? (acc : Nat) : List Char → Option Nat
  | [] => some acc
  | c :: cs => (digit? c).bind fun d => digitsFrom? (acc * 10 + d) cs

/-- The value of a run of at least one decimal digit. -/
def digits? : List Char → Option Nat
  | [] => none
  | c :: cs => digitsFrom? 0 (c :: cs)

/-- The numbers of thirty-two bits lie below this bound. -/
def bound32 : Nat := 0x100000000

/-- The numbers of sixty-four bits lie below this bound. -/
def bound64 : Nat := 0x10000000000000000

/-- A text less one plus sign at its front. -/
def unsigned : List Char → List Char
  | '+' :: cs => cs
  | cs => cs

/-- The whole number that a text spells, if it lies below `bound`. -/
def natBelow? (bound : Nat) (cs : List Char) : Option Nat :=
  (digits? (unsigned cs)).filter (· < bound)

end Patchbay.Text
