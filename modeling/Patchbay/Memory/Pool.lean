/-!
# `Patchbay.Memory.Pool` — the host's segment headers and clusters

The host lends headers, one for each segment of a frame, out of a pool that may be limited. Bytes that come
from the host stand in clusters, which are counted and not limited.

## Contents
* `Pool` — how many headers and clusters are out, and how many came back;
* `Pool.takeHeader?`, `Pool.returnHeader`, `Pool.takeCluster`, `Pool.returnCluster`;
* `Pool.free?` — the headers left, where there is a limit.
-/

namespace Patchbay

/-- The figures of the host's pool. -/
structure Pool where
  /-- The most headers that may be out at once. -/
  limit : Option Nat := none
  headersLive : Nat := 0
  headersReleased : Nat := 0
  clustersLive : Nat := 0
  clustersReleased : Nat := 0
deriving DecidableEq

namespace Pool

/-- Says whether another header can be lent. -/
def hasHeader (p : Pool) : Bool :=
  p.limit.all (p.headersLive < ·)

/-- The pool after one more header was lent, if it has one. -/
def takeHeader? (p : Pool) : Option Pool :=
  if p.hasHeader then some { p with headersLive := p.headersLive + 1 } else none

/-- The pool after a header came back. -/
def returnHeader (p : Pool) : Pool :=
  { p with headersLive := p.headersLive - 1, headersReleased := p.headersReleased + 1 }

/-- The pool after a cluster was made. -/
def takeCluster (p : Pool) : Pool :=
  { p with clustersLive := p.clustersLive + 1 }

/-- The pool after a cluster came back. -/
def returnCluster (p : Pool) : Pool :=
  { p with clustersLive := p.clustersLive - 1, clustersReleased := p.clustersReleased + 1 }

/-- The headers left; none is written where there is no limit. -/
def free? (p : Pool) : Option Nat :=
  p.limit.map (· - p.headersLive)

theorem takeHeader?_eq_none_iff (p : Pool) : p.takeHeader? = none ↔ p.free? = some 0 := by
  cases h : p.limit with
  | none => simp [takeHeader?, hasHeader, free?, h]
  | some l => simp [takeHeader?, hasHeader, free?, h]; omega

end Pool

end Patchbay
