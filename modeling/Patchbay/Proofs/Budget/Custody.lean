import Patchbay.Proofs.Budget.Accounting
import Patchbay.Proofs.Place

/-!
# `Proofs.Budget.Custody` — whole runs of requests to one budget

Blocks are asked for, resized and returned one call after another, each on the lane of whatever thread makes it,
and the system allocator may refuse any of them. `Custody` is a budget with the blocks that are out; a run of any
calls keeps the reported figures equal to what is out, and the total at or below the ceiling.

## Contents
* `Call`, `Turn`, `Custody`, `Custody.step`, `Custody.run`;
* `Custody.Sound` — the tally, and the ceiling; `Sound.step`, `Sound.run`;
* `run_figures` — the figures that a reader sees after any run.
-/

namespace Patchbay

namespace Budget

/-- What holders of blocks ask for. Blocks are named by their place among those that are out. -/
inductive Call where
  | alloc (kind : Kind) (comment : Option String) (size : Nat)
  | resize (place size : Nat)
  | free (place : Nat)

/-- A call, the lane of the thread that makes it, and which requests the system allocator grants just then. -/
structure Turn where
  call : Call
  lane : Lane := Lane.first
  heap : Heap := Heap.standard

/-- A budget and the blocks that it granted and that were not returned yet. -/
structure Custody where
  budget : Budget
  live : List Block := []

namespace Custody

/-- A call carried out; a place without a block stands for no call. -/
def step (c : Custody) (t : Turn) : Custody :=
  match t.call with
  | .alloc kind comment size =>
    match c.budget.alloc t.heap kind t.lane comment size with
    | (.ok block, b) => ⟨b, block :: c.live⟩
    | (.error _, b) => ⟨b, c.live⟩
  | .resize place size =>
    match c.live[place]? with
    | none => c
    | some block =>
      match c.budget.resize t.heap t.lane block size with
      | (.ok block, b) => ⟨b, c.live.set place block⟩
      | (.error _, b) => ⟨b, c.live⟩
  | .free place =>
    match c.live[place]? with
    | none => c
    | some block => ⟨c.budget.free t.lane block, c.live.eraseIdx place⟩

/-- Calls carried out one after another. -/
def run (c : Custody) (turns : List Turn) : Custody :=
  turns.foldl step c

/-- The figures are those of the blocks that are out, and these do not exceed the ceiling. -/
structure Sound (ceiling : Nat) (c : Custody) : Prop where
  tallied : c.budget.Tallied c.live
  ceiling_eq : c.budget.ceiling = ceiling
  within : ((c.live : Multiset Block).map Block.size).sum ≤ ceiling

/-! ## Every call keeps the figures sound -/

namespace Sound

variable {ceiling : Nat} {c : Custody}

theorem new (key ceiling : Nat) (tracking : Bool) :
    Sound ceiling ⟨Budget.new key ceiling tracking, []⟩ :=
  ⟨Tallied.new key ceiling tracking, rfl, Nat.zero_le ceiling⟩

/-- A grant below the ceiling leaves the custody sound. -/
theorem alloc (h : Sound ceiling c) (hc : ceiling < 2 ^ 62) (heap : Heap) (kind : Kind) (lane : Lane)
    (comment : Option String) (size : Nat) :
    Sound ceiling (c.step ⟨.alloc kind comment size, lane, heap⟩) := by
  obtain ⟨htallied, rfl, hwithin⟩ := h
  cases hr : c.budget.alloc heap kind lane comment size with
  | mk answer b =>
    simp only [step, hr]
    cases answer with
    | error e =>
      obtain rfl := alloc_error hr
      exact ⟨htallied, rfl, hwithin⟩
    | ok block =>
      obtain ⟨-, -, hceiling, -⟩ := alloc_noted hr
      exact ⟨htallied.alloc hr, hceiling, htallied.alloc_within hc hwithin hr⟩

/-- So does a block that is resized. -/
theorem resize (h : Sound ceiling c) (hc : ceiling < 2 ^ 62) (heap : Heap) (lane : Lane)
    (place size : Nat) : Sound ceiling (c.step ⟨.resize place size, lane, heap⟩) := by
  cases hp : c.live[place]? with
  | none =>
    simp only [step, hp]
    exact h
  | some block =>
    obtain ⟨htallied, rfl, hwithin⟩ := h
    cases hr : c.budget.resize heap lane block size with
    | mk answer b =>
      simp only [step, hp, hr]
      cases answer with
      | error e =>
        obtain rfl := resize_error hr
        exact ⟨htallied, rfl, hwithin⟩
      | ok block' =>
        obtain ⟨-, -, -, hceiling, -⟩ := resize_noted hr
        -- the block is singled out from the others that are out, and put back with its new size
        rw [coe_eq_cons_eraseIdx hp] at htallied hwithin
        have ht := htallied.resize hr
        have hw := htallied.resize_within hc hwithin hr
        rw [← coe_set_eq_cons_eraseIdx hp] at ht hw
        exact ⟨ht, hceiling, hw⟩

/-- And one that comes back. -/
theorem free (h : Sound ceiling c) (lane : Lane) (heap : Heap) (place : Nat) :
    Sound ceiling (c.step ⟨.free place, lane, heap⟩) := by
  cases hp : c.live[place]? with
  | none =>
    simp only [step, hp]
    exact h
  | some block =>
    have ht := h.tallied
    have hw := h.within
    rw [coe_eq_cons_eraseIdx hp] at ht hw
    rw [Multiset.map_cons, Multiset.sum_cons] at hw
    simp only [step, hp]
    exact ⟨ht.free lane, h.ceiling_eq, (Nat.le_add_left _ _).trans hw⟩

/-- So a call leaves the custody sound, whatever is asked on whatever lane. -/
theorem step (h : Sound ceiling c) (hc : ceiling < 2 ^ 62) (t : Turn) : Sound ceiling (c.step t) := by
  obtain ⟨call, lane, heap⟩ := t
  cases call with
  | alloc kind comment size => exact h.alloc hc heap kind lane comment size
  | resize place size => exact h.resize hc heap lane place size
  | free place => exact h.free lane heap place

/-- And so does a run of calls. -/
theorem run (h : Sound ceiling c) (hc : ceiling < 2 ^ 62) (turns : List Turn) :
    Sound ceiling (c.run turns) := by
  -- on the calls, for any custody that is sound: each step leaves a sound one behind
  induction turns generalizing c with
  | nil => exact h
  | cons t rest ih => exact ih (h.step hc t)

end Sound

/-! ## What a reader sees -/

/-- The bytes of the blocks of one kind that are out. -/
def bytesOut (c : Custody) (kind : Kind) : Nat :=
  total Block.size (c.live.filter fun block => block.kind = kind)

/-- The number of blocks of one kind that are out. -/
def blocksOut (c : Custody) (kind : Kind) : Nat :=
  (c.live.filter fun block => block.kind = kind).length

/-- The bytes that are out are those of the blocks that there are. -/
theorem bytesOut_eq (c : Custody) (kind : Kind) : c.bytesOut kind = bytesOf kind c.live := by
  rw [bytesOut, total_eq_sum, bytesOf, Multiset.filter_coe, Multiset.map_coe, Multiset.sum_coe]

theorem blocksOut_eq (c : Custody) (kind : Kind) : c.blocksOut kind = countOf kind c.live := by
  rw [blocksOut, countOf, Multiset.coe_countP, List.countP_eq_length_filter]

/-- **The figures tell what is out, and no run goes past the ceiling.** Whatever is asked for, granted, refused
by the budget or by the system allocator, resized or returned, and on whatever lanes. -/
theorem run_figures (key : Nat) {ceiling : Nat} (hc : ceiling < 2 ^ 62) (tracking : Bool)
    (turns : List Turn) :
    let c := run ⟨Budget.new key ceiling tracking, []⟩ turns
    let a := c.budget.account
    (∀ kind, a.outstandingOf kind = c.bytesOut kind ∧
      (a.ofKind kind).allocations = (a.ofKind kind).frees + c.blocksOut kind) ∧
    c.budget.outstanding = a.outstandingOf .plain + a.outstandingOf .contiguous ∧
    a.allocations = (a.ofKind .plain).allocations + (a.ofKind .contiguous).allocations ∧
    a.frees = (a.ofKind .plain).frees + (a.ofKind .contiguous).frees ∧
    c.budget.outstanding ≤ ceiling := by
  intro c a
  have h : Sound ceiling c := (Sound.new key ceiling tracking).run hc turns
  have hsum := bytesOf_add_bytesOf c.live
  have hwithin := h.within
  -- far below where a counter wraps, so every figure can be read off
  have hlt : ((c.live : Multiset Block).map Block.size).sum < signedBound := by
    rw [signedBound]
    omega
  have hkind (kind : Kind) : a.outstandingOf kind = bytesOf kind c.live := by
    refine h.tallied.outstandingOf_eq ?_
    cases kind <;> omega
  have htotal : c.budget.outstanding = ((c.live : Multiset Block).map Block.size).sum :=
    h.tallied.outstanding_eq hlt
  refine ⟨fun kind => ⟨?_, ?_⟩, ?_, rfl, rfl, ?_⟩
  · rw [hkind, bytesOut_eq]
  · rw [blocksOut_eq]
    exact h.tallied.counts kind
  · rw [htotal, hkind, hkind, hsum]
  · rw [htotal]
    exact hwithin

/-- Two kinds, three lanes, a growth that the ceiling refuses, a block that the system allocator refuses, and a
block that returns on another lane than it came from. -/
theorem run_figures_mixed :
    let turns : List Turn :=
      [⟨.alloc .plain none 100, .first, .standard⟩,
        ⟨.alloc .contiguous none 1, ⟨1, by decide⟩, .standard⟩,
        ⟨.resize 1 5000, ⟨2, by decide⟩, .standard⟩, ⟨.alloc .plain none 8, .first, fun _ => false⟩,
        ⟨.resize 1 40, ⟨2, by decide⟩, .standard⟩, ⟨.free 0, .first, .standard⟩]
    let c := run ⟨Budget.new 0 8192 true, []⟩ turns
    8192 < 2 ^ 62 ∧ c.live.map Block.size = [40] ∧
      c.budget.account.outstandingOf .plain = c.bytesOut .plain ∧ c.budget.outstanding ≤ 8192 := by
  intro turns c
  obtain ⟨hkinds, -, -, -, hceiling⟩ := run_figures 0 (by decide : 8192 < 2 ^ 62) true turns
  exact ⟨by decide, by decide +kernel, (hkinds .plain).1, hceiling⟩

end Custody

end Budget

end Patchbay
