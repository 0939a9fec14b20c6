/-!
# `Patchbay.Budget.Page` — sizes and their limits

Sizes are counts of bytes below two to the sixty-fourth. Contiguous memory is handed out in whole pages.

## Contents
* `sizeBound`, `signedBound` — the sizes that exist, and those that a signed counter can be charged with;
* `wholePages?` — the least number of whole pages that holds a size;
* `ceilingFor` — a configured ceiling, never below the floor.
-/

namespace Patchbay.Budget

/-- Sizes lie below this bound, two to the sixty-fourth. -/
def sizeBound : Nat := 0x10000000000000000

/-- Charges lie below this bound, half of all sizes, because the counters are signed. -/
def signedBound : Nat := 0x8000000000000000

/-- The bytes of one page. -/
def pageSize : Nat := 4096

/-- The least multiple of the page size that holds `size` bytes, if it is a size. -/
def wholePages? (size : Nat) : Option Nat :=
  if size + (pageSize - 1) < sizeBound then some ((size + (pageSize - 1)) / pageSize * pageSize)
  else none

/-- The smallest ceiling that a budget is given: thirty-two mebibytes. -/
def ceilingFloor : Nat := 32 * 1024 * 1024

/-- The ceiling that a configured value stands for; the floor wins over anything less. -/
def ceilingFor (configured : Option Nat) : Nat :=
  max (configured.getD 0) ceilingFloor

/-! ## Page arithmetic -/

theorem wholePages?_eq_some {size pages : Nat} (h : wholePages? size = some pages) :
    size ≤ pages ∧ pages < size + pageSize ∧ pageSize ∣ pages := by
  unfold wholePages? at h
  split at h
  · injection h with h
    subst h
    refine ⟨?_, ?_, Nat.dvd_mul_left _ _⟩ <;> simp only [pageSize] <;> omega
  · cases h

end Patchbay.Budget
