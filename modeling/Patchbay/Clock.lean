/-!
# `Patchbay.Clock` — seconds in host ticks

Consumers state timeouts in seconds, the host counts ticks at a fixed rate.

## Contents
* `ticks` — a timeout in whole ticks, rounded down and clamped to 32 bits;
* `Clock` — a rate of at least one tick a second, and what it makes of a timeout.
-/

namespace Patchbay

/-- A timeout in whole ticks at `rate` ticks a second. A timeout that is not positive, or not a number, takes
no tick; one that is too long for 32 bits takes the largest count. -/
def ticks (seconds : Float) (rate : UInt32) : UInt32 :=
  if seconds.isNaN || seconds <= 0 then 0 else (seconds * rate.toFloat).toUInt32

/-- A tick rate, never below one tick a second. -/
structure Clock where
  rate : UInt32
  one_le_rate : 1 ≤ rate

namespace Clock

/-- The rate that is used where none is configured. -/
def defaultRate : Nat := 100

/-- The clock at a wanted rate; a rate of zero is taken as one. -/
def ofRate (wanted : UInt32) : Clock :=
  if h : 1 ≤ wanted then ⟨wanted, h⟩ else ⟨1, by decide⟩

/-- The length of one tick in whole nanoseconds. -/
def tickNanoseconds (c : Clock) : Nat :=
  1000000000 / c.rate.toNat

/-- A timeout in ticks of this clock. -/
def ticks (c : Clock) (seconds : Float) : UInt32 :=
  Patchbay.ticks seconds c.rate

/-- How long a pause lasts, in ticks: the timeout rounded down, but never less than one tick. -/
def pauseTicks (c : Clock) (seconds : Float) : Nat :=
  max (c.ticks seconds).toNat 1

end Clock

end Patchbay
