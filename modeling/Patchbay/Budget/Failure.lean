/-!
# `Patchbay.Budget.Failure` — why memory is refused

## Contents
* `Failure` — the three causes; `Failure.message` — what a reader is told.
-/

namespace Patchbay.Budget

/-- Why a request for memory is refused. -/
inductive Failure where
  /-- The request would lift the outstanding total above the ceiling, or is too large to be counted. -/
  | outOfMemory (requested outstanding ceiling : Nat)
  /-- The system allocator has no such block. -/
  | exhausted (requested : Nat)
  /-- The pool of segment headers has none left. -/
  | poolExhausted (segments : Nat)
deriving DecidableEq, Repr

/-- The wording of a refusal. -/
def Failure.message : Failure → String
  | .outOfMemory requested outstanding ceiling =>
    "memory ceiling reached: requested=" ++ toString requested ++ " outstanding=" ++
      toString outstanding ++ " ceiling=" ++ toString ceiling
  | .exhausted requested => "allocation of " ++ toString requested ++ " bytes failed"
  | .poolExhausted segments =>
    "buffer pool exhausted: " ++ toString segments ++ " segment(s) requested"

end Patchbay.Budget
