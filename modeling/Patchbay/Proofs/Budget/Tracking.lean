import Patchbay.Proofs.Budget.Audit

/-!
# `Proofs.Budget.Tracking` — a ledger changes nothing but reports

Every operation of a budget tells the ledger what it did, and a check empties it, so that it soon lists other blocks
than those that are out. Nothing that a budget decides, counts or hands out is read from it: a run beside a ledger
and the same run without one are told apart by the reports alone.

## Contents
* `untracked` — a budget without its ledger; each operation commutes with that;
* `Stats`, `stats` — the figures that a reader gets;
* `Audit.blind` — an audit that was never told anything; `serve_blind`, `trace_blind`;
* `trace_tracking` — what is seen of a run with a ledger, and of the run without it.
-/

namespace Patchbay

namespace Budget

/-- A budget without its ledger. -/
def untracked (b : Budget) : Budget :=
  { b with ledger := none }

/-! ## No operation reads the ledger -/

section Operations

variable (b : Budget) (heap : Heap) (kind : Kind) (lane : Lane)

/-- What is reserved is no matter of the ledger. -/
theorem reserve_untracked (n : Nat) :
    b.untracked.reserve kind lane n = ((b.reserve kind lane n).1, (b.reserve kind lane n).2.untracked) := by
  unfold reserve
  by_cases hn : b.ceiling < n ∨ signedBound ≤ n
  · rw [if_pos hn]
    exact if_pos hn
  · rw [if_neg hn]
    refine (if_neg hn).trans ?_
    by_cases ht : b.ceiling < (b.charge kind lane n).outstanding
    · simp only [if_pos ht]
      exact if_pos ht
    · simp only [if_neg ht]
      exact if_neg ht

/-- A request is answered as without the ledger, which only notes it. -/
theorem alloc_untracked (comment : Option String) (size : Nat) :
    b.untracked.alloc heap kind lane comment size =
      ((b.alloc heap kind lane comment size).1, (b.alloc heap kind lane comment size).2.untracked) := by
  unfold alloc
  cases chargedSize kind size with
  | error e => rfl
  | ok n =>
    simp only [reserve_untracked]
    -- what was charged is either granted or given back, and the ledger hears of the first only
    cases b.reserve kind lane n with
    | mk result b' =>
      cases result with
      | error e => rfl
      | ok granted =>
        by_cases hheap : heap.has n = true
        · simp only [if_pos hheap]
          rfl
        · simp only [if_neg hheap]
          rfl

/-- So it is when a block is resized. -/
theorem resize_untracked (block : Block) (size : Nat) :
    b.untracked.resize heap lane block size =
      ((b.resize heap lane block size).1, (b.resize heap lane block size).2.untracked) := by
  unfold resize
  cases chargedSize block.kind size with
  | error e => rfl
  | ok n =>
    by_cases hgrows : block.size < n
    · simp only [if_pos hgrows, reserve_untracked]
      cases b.reserve block.kind lane (n - block.size) with
      | mk result b' =>
        cases result with
        | error e => rfl
        | ok granted =>
          by_cases hheap : heap.has n = true
          · simp only [if_pos hheap]
            rfl
          · simp only [if_neg hheap]
            rfl
    · simp only [if_neg hgrows]
      rfl

/-- Without a ledger a check finds nothing. -/
theorem collectLeaks_untracked : b.untracked.collectLeaks = (⟨[]⟩, b.collectLeaks.2.untracked) := by
  unfold collectLeaks untracked
  cases b.ledger with
  | none => rfl
  | some l => rfl

end Operations

/-! ## What is seen of a run -/

/-- The figures of one kind that a reader gets. -/
structure KindStats where
  outstanding : Nat
  allocations : Nat
  frees : Nat
deriving DecidableEq

/-- The figures of a budget that a reader gets. -/
structure Stats where
  ceiling : Nat
  outstanding : Nat
  allocations : Nat
  frees : Nat
  plain : KindStats
  contiguous : KindStats
deriving DecidableEq

/-- The figures of one kind. -/
def Account.stats (a : Account) (kind : Kind) : KindStats :=
  ⟨a.outstandingOf kind, (a.ofKind kind).allocations, (a.ofKind kind).frees⟩

/-- The figures of a budget. -/
def stats (b : Budget) : Stats where
  ceiling := b.ceiling
  outstanding := b.outstanding
  allocations := b.account.allocations
  frees := b.account.frees
  plain := b.account.stats .plain
  contiguous := b.account.stats .contiguous

namespace Audit

/-- What a request shows: its answer, and after it the blocks that are out and the figures. -/
structure Sight where
  answer : Answer
  blocks : List Block
  stats : Stats

/-- What is seen of requests carried out one after another. -/
def trace (a : Audit) : List Turn → List Sight
  | [] => []
  | t :: rest =>
    ⟨(a.serve t).1, (a.step t).tenants.map Tenant.block, (a.step t).budget.stats⟩ :: trace (a.step t) rest

/-- The answer with nothing told of leaks; any other is as it was. -/
def Answer.hushed : Answer → Answer
  | .report _ => .report ⟨[]⟩
  | answer => answer

/-- What is seen, but for what a check tells. -/
def Sight.hushed (s : Sight) : Sight :=
  { s with answer := s.answer.hushed }

/-! ## The run without a ledger -/

/-- The audit without a ledger, whose checks have told nothing. -/
def blind (a : Audit) : Audit where
  budget := a.budget.untracked
  tenants := a.tenants
  reports := a.reports.map fun _ => ⟨[]⟩

/-- A call on a budget without its ledger is answered the same, but for what a check reports. -/
theorem serve_blind (a : Audit) (t : Turn) :
    a.blind.serve t = ((a.serve t).1.hushed, (a.step t).blind) := by
  obtain ⟨request, lane, heap⟩ := t
  unfold Audit.step serve
  cases request with
  | alloc kind comment size =>
    dsimp only [blind]
    rw [alloc_untracked]
    cases a.budget.alloc heap kind lane comment size with
    | mk result b =>
      cases result with
      | error e => rfl
      | ok block =>
        -- checks are counted alike, so a new block gets the same number
        rw [List.length_map]
        rfl
  | resize place size =>
    dsimp only [blind]
    cases a.tenants[place]? with
    | none => rfl
    | some tenant =>
      dsimp only
      rw [resize_untracked]
      cases a.budget.resize heap lane tenant.block size with
      | mk result b =>
        cases result with
        | error e => rfl
        | ok block => rfl
  | write place start data =>
    dsimp only [blind]
    cases a.tenants[place]? with
    | none => rfl
    | some tenant => rfl
  | free place =>
    dsimp only [blind]
    cases a.tenants[place]? with
    | none => rfl
    | some tenant => rfl
  | check =>
    dsimp only [blind]
    rw [collectLeaks_untracked, List.map_append]
    rfl

theorem step_blind (a : Audit) (t : Turn) : a.blind.step t = (a.step t).blind := by
  rw [step, serve_blind]

/-- So is a run of calls. -/
theorem trace_blind (a : Audit) (turns : List Turn) :
    a.blind.trace turns = (a.trace turns).map Sight.hushed := by
  -- on the requests, for any audit: blocks and figures are read off alike, and so it goes on
  induction turns generalizing a with
  | nil => rfl
  | cons t rest ih =>
    rw [trace, trace, List.map_cons, step_blind, ih, serve_blind]
    rfl

/-- **Whether a budget keeps a ledger shows in reports alone.** Whatever is asked for, on whatever lanes and of
whatever system allocator: request for request the run without a ledger gives the answers of the run with one, the
errors and their figures included, checks apart, which tell nothing then; and after each request the same blocks are
out, with the same ids, kinds and bytes, and the same figures are read. -/
theorem trace_tracking (key ceiling : Nat) (turns : List Turn) :
    (start key ceiling false).trace turns = ((start key ceiling true).trace turns).map Sight.hushed :=
  trace_blind (start key ceiling true) turns

end Audit

end Budget

end Patchbay
