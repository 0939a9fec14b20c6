import Patchbay.Proofs.Slot.Links
import Patchbay.Proofs.Slot.Stacking

/-!
# `Proofs.Slot.Moves` — all that consumers do to the slot

As long as nobody else has a hand in it, an act leaves the slot alone, or starts a splice in front of what is there, or
tears one down that is active, which puts back what the splice remembers. What is active or referred to behind the act
was so before it and remembers what it did.

## Contents
* `Network.Moves` — what an act does to the slot;
* `Held.startSplice`, `Held.tearDown`, `Held.dropSplice` — starts and ends are such moves;
* `Scene.moves_step` — so is every act.
-/

namespace Patchbay

namespace Network

variable {n n' n'' : Network} {key : Nat} {starts : Bool}

/-- What happens to the slot when a splice is started, or in any other act of consumers. -/
inductive Moves (n n' : Network) : Bool → Prop where
  | stays (slot : n'.slot = n.slot) (active : ∀ key, n'.IsActive key ↔ n.IsActive key) : Moves n n' false
  | starts (size : n'.splices.size = n.splices.size + 1) (slot : n'.slot = some (.splice n.splices.size))
      (remembers : n'.previous? n.splices.size = n.slot)
      (active : ∀ key, n'.IsActive key ↔ key = n.splices.size ∨ n.IsActive key) : Moves n n' true
  | ends (key : Nat) (was : n.IsActive key) (slot : n'.slot = n.previous? key)
      (active : ∀ other, n'.IsActive other ↔ n.IsActive other ∧ other ≠ key) : Moves n n' false

/-- A network that comes after another one by an act of consumers. -/
structure Follows (n n' : Network) (starts : Bool) : Prop where
  held : n'.Held none
  endures : n.Endures n'
  moves : n.Moves n' starts

theorem Held.follows (h : n'.Held none) (hs : n.Spares n') : n.Follows n' false :=
  ⟨h, hs.endures, .stays hs.slot hs.active⟩

/-- What spares every splice can be done behind an act. -/
theorem Follows.spares (h : n.Follows n' starts) (hheld : n''.Held none) (hs : n'.Spares n'') :
    n.Follows n'' starts where
  held := hheld
  endures := h.endures.trans hs.endures
  moves := by
    cases h.moves with
    | stays slot active => exact .stays (hs.slot.trans slot) fun key => (hs.active key).trans (active key)
    | starts size slot remembers active =>
      have hnew : n''.IsActive n.splices.size := (hs.active _).2 ((active _).2 (.inl rfl))
      exact .starts (hs.size.trans size) (hs.slot.trans slot) ((hs.kept _ (.inr hnew)).trans remembers)
        fun key => (hs.active key).trans (active key)
    | ends key was slot active =>
      exact .ends key was (hs.slot.trans slot) fun other => (hs.active other).trans (active other)

/-- Memory has no part in it. -/
theorem Follows.of_setMemory {m : Memory} (h : (n.setMemory m).Follows n' starts) : n.Follows n' starts where
  held := h.held
  endures := ⟨h.endures.size, h.endures.active, h.endures.refs, h.endures.kept⟩
  moves := by
    cases h.moves with
    | stays slot active => exact .stays slot active
    | starts size slot remembers active => exact .starts size slot remembers active
    | ends key was slot active => exact .ends key was slot active

/-! ## A splice is started -/

/-- The reference from the slot becomes one from the splice, which the slot refers to. -/
theorem refs_startSplice (n : Network) (budget key : Nat) :
    (n.startSplice budget).2.refs key = n.refs key + refers (some (.splice n.splices.size)) key := by
  rw [Network.refs, startSplice_eq]
  dsimp only
  rw [Array.toList_push, List.map_append, List.sum_append, List.map_singleton, List.sum_singleton, Network.refs]
  show _ + (_ + refers n.slot key) = _
  omega

theorem linksOf_startSplice (n : Network) (budget key : Nat) :
    (n.startSplice budget).2.linksOf key = if key = n.splices.size then 1 else n.linksOf key := by
  rw [linksOf, getElem?_startSplice]
  split <;> rfl

theorem isActive_startSplice (n : Network) (budget key : Nat) :
    (n.startSplice budget).2.IsActive key ↔ key = n.splices.size ∨ n.IsActive key := by
  unfold IsActive
  rw [getElem?_startSplice]
  split
  · rename_i heq
    exact iff_of_true ⟨_, rfl, rfl⟩ (.inl heq)
  · rename_i hne
    exact (or_iff_right hne).symm

theorem Held.startSplice (h : n.Held none) (budget : Nat) : n.Follows (n.startSplice budget).2 true where
  held := by
    refine ⟨fun key => ?_, fun key s hs hactive => ?_⟩
    · rw [refs_startSplice, linksOf_startSplice, refers_none]
      have hcovered := h.covered key
      split
      · rename_i heq
        subst heq
        rw [linksOf, Array.getElem?_size] at hcovered
        rw [refers_eq_one rfl]
        exact Nat.succ_le_succ ((Nat.le_add_right _ _).trans hcovered)
      · rename_i hne
        rw [refers_of_ne rfl (Ne.symm hne)]
        exact hcovered
    · rw [getElem?_startSplice] at hs
      split at hs
      · obtain rfl := Option.some.inj hs
        exact Nat.one_pos
      · exact h.manned key s hs hactive
  endures := by
    refine ⟨?_, fun key hkey hactive => ?_, fun key hkey hpos => ?_, fun key hkey _ => ?_⟩
    · rw [size_startSplice]
      exact Nat.le_succ _
    · exact ((n.isActive_startSplice budget key).1 hactive).resolve_left hkey.ne
    · rwa [refs_startSplice, refers_of_ne rfl hkey.ne'] at hpos
    · rw [previous?_startSplice, if_neg hkey.ne]
  moves := by
    refine .starts (n.size_startSplice budget) (n.slot_startSplice budget) ?_ (n.isActive_startSplice budget)
    rw [previous?_startSplice, if_pos rfl]

/-! ## A splice is torn down -/

/-- A splice that is torn down while it is active puts back what it remembers. -/
theorem Held.tearDown (h : n.Held none) (key : Nat) :
    n.Follows (n.tearDown key) false ∧ ¬ (n.tearDown key).IsActive key := by
  unfold Network.tearDown
  split
  · rename_i hnone
    refine ⟨h.follows (.refl n), ?_⟩
    rintro ⟨s, hs, -⟩
    cases hnone.symm.trans hs
  rename_i s hget
  split
  swap
  · rename_i hinactive
    refine ⟨h.follows (.refl n), ?_⟩
    rintro ⟨t, ht, hactive⟩
    obtain rfl := Option.some.inj (hget.symm.trans ht)
    exact hinactive hactive
  rename_i hactive
  dsimp only
  let f : Splice → Splice := fun s => { s with active := false }
  -- the splice lets go of the slot, what it remembers comes back there, and then everything is unplugged
  let n₁ := n.modifySplice key f
  let n₂ := (n₁.link (n₁.previous? key)).putHook (n₁.previous? key)
  let n₃ := (n₂.onRegistry key Registry.unplugEverything).2
  change n.Follows n₃ false ∧ ¬ n₃.IsActive key
  -- first, only this splice has ceased to be active
  have hdone (other : Nat) : n₁.IsActive other ↔ n.IsActive other ∧ other ≠ key := by
    unfold IsActive
    rw [getElem?_modifySplice]
    split
    · rename_i heq
      rw [← heq, hget]
      simp [f]
    · rename_i hne
      exact (and_iff_left (Ne.symm hne)).symm
  have hprevious (other : Nat) : n₁.previous? other = n.previous? other :=
    n.previous?_modifySplice key other fun _ => rfl
  have hheld : n₁.Held none :=
    h.modifySplice hget (fun _ => rfl) (Nat.le_refl _) (fun _ _ => Nat.le_refl _) fun hfalse => by cases hfalse
  obtain ⟨hback, hkeeps, hslot⟩ := hheld.putBack (n₁.previous? key) (n₁.refers_previous?_le key)
  -- unplugging is no matter of the slot
  have hseats : n₂.SameSeats n₃ := n₂.sameSeats_onRegistry key _
  have hall := hkeeps.trans hseats.spares.toKeeps
  have hactives (other : Nat) : n₃.IsActive other ↔ n.IsActive other ∧ other ≠ key :=
    (hall.active other).trans (hdone other)
  refine ⟨⟨hback.sameSeats hseats, ⟨?_, fun other _ hin => ?_, fun other _ hpos => ?_, fun other _ hin => ?_⟩, ?_⟩,
    fun hin => ((hactives key).1 hin).2 rfl⟩
  · exact (hall.size.trans (n.size_modifySplice key f)).ge
  · exact ((hactives other).1 hin).1
  · rw [← n.refs_modifySplice_of_previous (f := f) key other fun _ => rfl]
    exact hall.refs other hpos
  · exact (hall.kept other hin).trans (hprevious other)
  · exact .ends key ⟨s, hget, hactive⟩ (hseats.slot.trans (hslot.trans (hprevious key))) hactives

/-- With its last handle a splice that is active is torn down. -/
theorem Held.dropSplice (h : n.Held none) (key : Nat) : n.Follows (n.dropSplice key) false := by
  unfold Network.dropSplice
  split
  · exact h.follows (.refl n)
  rename_i s hget
  dsimp only
  let n₁ := if s.handles ≤ 1 then n.tearDown key else n
  let f : Splice → Splice := fun s => { s with handles := s.handles - 1 }
  change n.Follows ((n₁.modifySplice key f).dispose key) false
  obtain ⟨hfollows, hlast⟩ : n.Follows n₁ false ∧ (s.handles ≤ 1 → ¬ n₁.IsActive key) := by
    show n.Follows (ite _ _ _) false ∧ _
    split
    · rename_i hle
      obtain ⟨hfollows, hdone⟩ := h.tearDown key
      exact ⟨hfollows, fun _ => by rw [show n₁ = n.tearDown key from if_pos hle]; exact hdone⟩
    · rename_i hmore
      exact ⟨h.follows (.refl n), fun hle => absurd hle hmore⟩
  -- whoever is still active has a handle left
  have hheld : (n₁.modifySplice key f).Held none := by
    cases hget₁ : n₁.splices[key]? with
    | none =>
      rw [modifySplice_of_none hget₁]
      exact hfollows.held
    | some t =>
      refine hfollows.held.modifySplice hget₁ (fun _ => rfl) (Nat.le_refl _) (fun _ _ => Nat.le_refl _) ?_
      intro hactive
      have hmore : ¬ s.handles ≤ 1 := fun hle => hlast hle ⟨t, hget₁, hactive⟩
      have hsame : n₁ = n := if_neg hmore
      rw [hsame, hget] at hget₁
      obtain rfl := Option.some.inj hget₁
      show 0 < s.handles - 1
      omega
  obtain ⟨hend, hdispose⟩ := hheld.disposeWithin (n₁.modifySplice key f).splices.size key
  have hspares : n₁.Spares (n₁.modifySplice key f) := n₁.spares_modifySplice key (fun _ => rfl) fun _ => rfl
  exact hfollows.spares hend (hspares.trans hdispose)

theorem Held.holdSplice (h : n.Held none) (key : Nat) : n.Follows (n.holdSplice key) false := by
  refine Held.follows ?_ (n.spares_modifySplice key (fun _ => rfl) fun _ => rfl)
  cases hget : n.splices[key]? with
  | none =>
    rw [Network.holdSplice, modifySplice_of_none hget]
    exact h
  | some s =>
    exact h.modifySplice hget (fun _ => rfl) (Nat.le_refl _) (fun _ _ => Nat.le_refl _) fun _ => Nat.succ_pos _

end Network

/-! ## Acts -/

namespace Scene

open Network (Held Follows)

/-- Whatever consumers do, the slot is left alone, or a splice is started or torn down. -/
theorem moves_step {s : Scene} (h : s.network.Held none) {t : Turn} (hmeddles : t.act.meddles = false) :
    s.network.Follows (s.step t).network t.act.starts := by
  obtain ⟨act, lane, heap⟩ := t
  have hquiet (hact : act.handlesHooks = false) (hstarts : act.starts = false) :
      s.network.Follows (s.step ⟨act, lane, heap⟩).network act.starts := by
    have hsame := s.sameSeats_step (t := ⟨act, lane, heap⟩) hact
    rw [hstarts]
    exact (h.sameSeats hsame).follows hsame.spares
  have hn : (s.network.setMemory { s.network.memory with heap := heap, lane := lane }).Held none :=
    h.sameSeats ⟨rfl, rfl⟩
  cases act with
  | block act => exact hquiet rfl rfl
  | packet act => exact hquiet rfl rfl
  | queue act => exact hquiet rfl rfl
  | host act => cases act <;> first | exact hquiet rfl rfl | cases hmeddles
  | splice act =>
    cases act with
    | start budget => exact (hn.startSplice budget).of_setMemory
    | hold key => exact (hn.holdSplice key).of_setMemory
    | drop key => exact (hn.dropSplice key).of_setMemory
    | tearDown key => exact (hn.tearDown key).1.of_setMemory
    | _ => first | exact hquiet rfl rfl | cases hmeddles

end Scene

end Patchbay
