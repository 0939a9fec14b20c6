import Patchbay.Proofs.Slot.Stacking

/-!
# `Proofs.Slot.Sight` — traffic sees only the splices on its way

What becomes of a chain depends on the hooks that it meets, and on what is plugged into the splices among them. Other
splices can as well not be there: whether they are taken away before a frame goes its way or after it, the host comes
out the same.

## Contents
* `Network.graft` — the network with other splices;
* `Network.Sees` — the splices among some hooks are the same ones;
* `Sees.offerInput`, `Sees.offerOutput` — then chains fare the same;
* `Sees.receive`, `Sees.inject`, `Sees.send` — and so do frames, if they meet the same hooks.
-/

namespace Patchbay

namespace Network

variable {n n' : Network} {splices : Array Splice} {hooks : List Hook}

/-- The network with other splices. -/
def graft (n : Network) (splices : Array Splice) : Network := { n with splices := splices }

/-- The splices among hooks are the same ones. -/
def Sees (n : Network) (splices : Array Splice) (hooks : List Hook) : Prop :=
  ∀ key, .splice key ∈ hooks → splices[key]? = n.splices[key]?

namespace Sees

theorem beside (h : n.Sees splices hooks) (hs : n.Beside n') : n'.Sees splices hooks := by
  intro key hkey
  rw [hs.splices]
  exact h key hkey

theorem intercept {key : Nat} (h : splices[key]? = n.splices[key]?) (index : Nat) (c : Chain) :
    (n.graft splices).intercept key index c =
      ((n.intercept key index c).1, (n.intercept key index c).2.graft splices) := by
  have hregistry : (n.graft splices).registry key = n.registry key :=
    congrArg (fun s : Option Splice => (s.map Splice.registry).getD {}) h
  have hbudget : (n.graft splices).budgetOf key = n.budgetOf key :=
    congrArg (fun s : Option Splice => (s.map Splice.budget).getD 0) h
  unfold Network.intercept
  dsimp only
  rw [hregistry, hbudget]
  repeat' split
  all_goals rfl

/-- Received chains fare the same. -/
theorem offerInput (h : n.Sees splices hooks) (index : Nat) (c : Chain) :
    (n.graft splices).offerInput index c hooks =
      ((n.offerInput index c hooks).1, (n.offerInput index c hooks).2.graft splices) := by
  induction hooks generalizing n c with
  | nil => rfl
  | cons hook rest ih =>
    cases hook with
    | foreign h =>
      unfold Network.offerInput
      dsimp only
      split <;> rfl
    | splice key =>
      have hbeside := (n.listsOnly_true.intercept key index c).beside
      unfold Network.offerInput
      rw [intercept (h key List.mem_cons_self)]
      cases hi : n.intercept key index c with
      | mk chain? n₁ =>
        rw [hi] at hbeside
        cases chain? with
        | none => rfl
        | some c => exact ih (fun key hkey => h.beside hbeside key (List.mem_cons_of_mem _ hkey)) c

/-- Chains that are sent fare the same. -/
theorem offerOutput (h : n.Sees splices hooks) (index : Nat) (c : Chain) :
    (n.graft splices).offerOutput index c hooks =
      ((n.offerOutput index c hooks).1, (n.offerOutput index c hooks).2.graft splices) := by
  induction hooks generalizing n c with
  | nil => rfl
  | cons hook rest ih =>
    cases hook with
    | foreign h =>
      unfold Network.offerOutput
      dsimp only
      split <;> rfl
    | splice key =>
      have hbeside := (n.listsOnly_true.intercept key index c).beside
      unfold Network.offerOutput
      rw [intercept (h key List.mem_cons_self)]
      cases hi : n.intercept key index c with
      | mk chain? n₁ =>
        rw [hi] at hbeside
        cases chain? with
        | none => rfl
        | some c => exact ih (fun key hkey => h.beside hbeside key (List.mem_cons_of_mem _ hkey)) c

variable (h : n.Sees splices n.path) (hpath : (n.graft splices).path = n.path)
include h hpath

/-- Slot and splices tell what a chain meets. -/
theorem onward (hs : n.Beside n') : n'.Sees splices n'.path ∧ (n'.graft splices).path = n'.path := by
  have hgraft : (n.graft splices).Beside (n'.graft splices) := ⟨rfl, hs.slot⟩
  rw [hgraft.path_eq, hpath, hs.path_eq]
  exact ⟨h.beside hs, rfl⟩

theorem receive (index : Nat) (c : Chain) : (n.graft splices).receive index c = (n.receive index c).graft splices := by
  unfold Network.receive
  dsimp only
  rw [hpath, h.offerInput]
  generalize n.offerInput index _ n.path = result
  obtain ⟨_ | c, n₁⟩ := result <;> rfl

theorem inject (index : Nat) (bytes : List UInt8) (cap : Nat) :
    (n.graft splices).inject index bytes cap = (n.inject index bytes cap).graft splices := by
  unfold Network.inject
  have hmake : (n.graft splices).onMemory (fun m => Frame.ofBytes m bytes cap (some index)) =
      ((n.onMemory fun m => Frame.ofBytes m bytes cap (some index)).1,
        (n.onMemory fun m => Frame.ofBytes m bytes cap (some index)).2.graft splices) := rfl
  have hbeside : n.Beside (n.onMemory fun m => Frame.ofBytes m bytes cap (some index)).2 := ⟨rfl, rfl⟩
  rw [hmake]
  generalize (n.onMemory fun m => Frame.ofBytes m bytes cap (some index)) = made at hbeside
  obtain ⟨_ | f, n₁⟩ := made
  · rfl
  · obtain ⟨hsees, hsame⟩ := h.onward hpath hbeside
    exact hsees.receive hsame index (.last f)

theorem send (index : Nat) (bytes : List UInt8) :
    (n.graft splices).send index bytes = ((n.send index bytes).1, (n.send index bytes).2.graft splices) := by
  unfold Network.send
  have hmake : (n.graft splices).onMemory (fun m => Frame.ofBytes m bytes Frame.largestSegment none) =
      ((n.onMemory fun m => Frame.ofBytes m bytes Frame.largestSegment none).1,
        (n.onMemory fun m => Frame.ofBytes m bytes Frame.largestSegment none).2.graft splices) := rfl
  have hbeside : n.Beside (n.onMemory fun m => Frame.ofBytes m bytes Frame.largestSegment none).2 := ⟨rfl, rfl⟩
  rw [hmake]
  generalize (n.onMemory fun m => Frame.ofBytes m bytes Frame.largestSegment none) = made at hbeside
  obtain ⟨_ | f, n₁⟩ := made
  · rfl
  · obtain ⟨hsees, hsame⟩ := h.onward hpath hbeside
    dsimp only
    rw [hsame, hsees.offerOutput]
    generalize n₁.offerOutput index (.last f) n₁.path = result
    obtain ⟨code | _ | c, n₂⟩ := result <;> rfl

end Sees

end Network

end Patchbay
