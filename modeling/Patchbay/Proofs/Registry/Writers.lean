import Patchbay.Proofs.Registry.Marks
import Patchbay.Proofs.Slot.Apart
import Patchbay.Proofs.Slot.Links

/-!
# `Proofs.Registry.Writers` — who writes the interface table

The interface table is written by whoever changes the host's interfaces, and by splices that plug and unplug. All the
rest of what goes on leaves it alone: what is routine, and hooks that come and go. A splice that somebody holds keeps
its plugs whatever happens in the slot.

## Contents
* `Network.Leaves` — the table and one splice are left alone; `leaves_unlink` and its kin;
* `Act.isOwn`, `Act.Suits` — acts that write the table through one splice, and acts that write it through no other;
* `Scene.leaves_perform` — what all others leave alone.
-/

namespace Patchbay

namespace Network

variable {n n' n'' : Network} {key : Nat}

/-! ## A splice that somebody holds -/

/-- The interface table is the same, and so is a splice that somebody holds, but for its handles and for its place in
the slot. -/
structure Leaves (n n' : Network) (key : Nat) : Prop where
  table : n'.plane.table = n.plane.table
  splice : ∀ s, n.splices[key]? = some s → 0 < s.handles →
    ∃ s', n'.splices[key]? = some s' ∧ s'.registry = s.registry ∧ s'.active = s.active ∧ 0 < s'.handles

/-- Where nothing happens, table and splice are left alone. -/
theorem Leaves.refl (n : Network) (key : Nat) : n.Leaves n key := ⟨rfl, fun s hs hheld => ⟨s, hs, rfl, rfl, hheld⟩⟩

/-- What is left alone on the way is left alone in the end. -/
theorem Leaves.trans (h : n.Leaves n' key) (h' : n'.Leaves n'' key) : n.Leaves n'' key where
  table := h'.table.trans h.table
  splice := by
    intro s hs hheld
    obtain ⟨s', hs', hregistry, hactive, hheld'⟩ := h.splice s hs hheld
    obtain ⟨s'', hs'', hregistry', hactive', hheld''⟩ := h'.splice s' hs' hheld'
    exact ⟨s'', hs'', hregistry'.trans hregistry, hactive'.trans hactive, hheld''⟩

theorem Beside.leaves (h : n.Beside n') (htable : n'.plane.table = n.plane.table) (key : Nat) : n.Leaves n' key where
  table := htable
  splice := fun s hs hheld => ⟨s, by rw [h.splices, hs], rfl, rfl, hheld⟩

/-- Routine steps leave every splice alone. -/
theorem Routine.leaves {lines : Nat → Prop} (h : n.Routine lines n') (key : Nat) : n.Leaves n' key :=
  h.beside.leaves h.table_eq key

/-- Any splice may change but for its plugs and whether it is active, as long as it keeps a handle that it has. -/
theorem leaves_modifySplice (n : Network) (key other : Nat) {f : Splice → Splice}
    (hf : ∀ s, n.splices[key]? = some s → other = key →
      (f s).registry = s.registry ∧ (f s).active = s.active ∧ (0 < s.handles → 0 < (f s).handles)) :
    n.Leaves (n.modifySplice other f) key where
  table := rfl
  splice := by
    intro s hs hheld
    rw [getElem?_modifySplice]
    split
    · rename_i heq
      obtain ⟨hregistry, hactive, hhandles⟩ := hf s hs heq
      exact ⟨f s, by rw [hs]; rfl, hregistry, hactive, hhandles hheld⟩
    · exact ⟨s, hs, rfl, rfl, hheld⟩

/-- A further hook place changes nothing that a splice lists. -/
theorem leaves_link (n : Network) (hook : Option Hook) (key : Nat) : n.Leaves (n.link hook) key := by
  unfold link
  split
  · exact .refl n key
  · exact n.leaves_modifySplice key _ fun _ _ _ => ⟨rfl, rfl, id⟩

/-- Plugs that go with their splice leave their marks where they are. -/
theorem table_abandon (n : Network) (key : Nat) : (n.abandon key).plane.table = n.plane.table := by
  have hdrop (plugs : List Plug) (p : Backplane) : (plugs.foldl Backplane.dropPlug p).table = p.table := by
    induction plugs generalizing p with
    | nil => rfl
    | cons plug rest ih => exact (ih _).trans (p.table_dropPlug plug)
  exact hdrop _ n.plane

theorem table_disposeWithin (fuel : Nat) (n : Network) (key : Nat) :
    (disposeWithin fuel n key).plane.table = n.plane.table := by
  induction fuel generalizing n key with
  | zero => rfl
  | succ fuel ih =>
    unfold disposeWithin
    split
    · rfl
    split
    · dsimp only
      split
      · exact n.table_abandon key
      · exact (ih _ _).trans (n.table_abandon key)
    · rfl

/-- Only a splice that nobody holds is given up. -/
theorem leaves_abandon (n : Network) {key other : Nat} (hne : other ≠ key) : n.Leaves (n.abandon other) key := by
  exact ⟨n.table_abandon other, fun s hs hheld => ⟨s, (getElem?_abandon_of_ne hne).trans hs, rfl, rfl, hheld⟩⟩

/-- Splices that nobody holds may go; one that is held stays as it is. -/
theorem leaves_disposeWithin (fuel : Nat) (n : Network) (other key : Nat) :
    n.Leaves (disposeWithin fuel n other) key := by
  -- on the fuel, since the end of one splice may end the one before it
  induction fuel generalizing n other with
  | zero => exact .refl n key
  | succ fuel ih =>
    unfold disposeWithin
    split
    · exact .refl n key
    rename_i t ht
    split
    · rename_i hnobody
      by_cases heq : other = key
      · -- the splice itself is given up, so nobody held it
        subst heq
        refine ⟨?_, fun s hs hheld => ?_⟩
        · dsimp only
          split
          · exact n.table_abandon other
          · exact (table_disposeWithin _ _ _).trans (n.table_abandon other)
        · obtain rfl := Option.some.inj (ht.symm.trans hs)
          exact absurd hnobody.1 hheld.ne'
      · dsimp only
        split
        · exact n.leaves_abandon heq
        · refine .trans ?_ (ih _ _)
          exact (n.leaves_abandon heq).trans (leaves_modifySplice _ key _ fun _ _ _ => ⟨rfl, rfl, id⟩)
    · exact .refl n key

theorem leaves_unlink (n : Network) (hook : Option Hook) (key : Nat) : n.Leaves (n.unlink hook) key := by
  unfold unlink
  split
  · exact .refl n key
  · refine .trans ?_ (leaves_disposeWithin _ _ _ key)
    exact n.leaves_modifySplice key _ fun _ _ _ => ⟨rfl, rfl, id⟩

theorem leaves_slot (n : Network) (hook : Option Hook) (key : Nat) : n.Leaves { n with slot := hook } key :=
  ⟨rfl, fun s hs hheld => ⟨s, hs, rfl, rfl, hheld⟩⟩

/-- Nor does it lose anything when another hook is put into the slot. -/
theorem leaves_putHook (n : Network) (hook : Option Hook) (key : Nat) : n.Leaves (n.putHook hook) key :=
  (n.leaves_slot hook key).trans (leaves_unlink _ n.slot key)

theorem leaves_exchangeHook (n : Network) (hook : Hook) (key : Nat) : n.Leaves (n.exchangeHook hook).2 key :=
  (n.leaves_slot (some hook) key).trans (leaves_link _ (some hook) key)

theorem leaves_tellPrevious (n : Network) (other : Nat) (hook : Option Hook) (key : Nat) :
    n.Leaves (n.tellPrevious other hook) key := by
  unfold tellPrevious
  split
  · exact n.leaves_modifySplice key other fun _ _ _ => ⟨rfl, rfl, id⟩
  · exact n.leaves_unlink hook key

theorem leaves_push (n : Network) (t : Splice) (hook : Option Hook) (key : Nat) :
    n.Leaves { n with splices := n.splices.push t, slot := hook } key := by
  refine ⟨rfl, fun s hs hheld => ⟨s, ?_, rfl, rfl, hheld⟩⟩
  have hlt : key < n.splices.size := (Array.getElem?_eq_some_iff.1 hs).1
  show (n.splices.push t)[key]? = some s
  rw [Array.getElem?_push, if_neg hlt.ne, hs]

/-- A splice that is started comes behind the others and writes nothing. -/
theorem leaves_startSplice (n : Network) (budget key : Nat) : n.Leaves (n.startSplice budget).2 key := by
  rw [startSplice_eq]
  exact n.leaves_push _ _ key

/-! ## Other splices -/

/-- Another splice may do with its registry what does not touch the table. -/
theorem leaves_onRegistry {α : Type} (n : Network) {key other : Nat}
    {f : Registry → Backplane → α × Registry × Backplane} (hne : other ≠ key)
    (htable : (f (n.registry other) n.plane).2.2.table = n.plane.table) : n.Leaves (n.onRegistry other f).2 key := by
  exact ⟨htable, fun s hs hheld => ⟨s, (getElem?_onRegistry_of_ne hne).trans hs, rfl, rfl, hheld⟩⟩

/-- One that has nothing plugged takes itself out of the slot without writing the table. -/
theorem leaves_tearDown (n : Network) {key other : Nat} (hne : other ≠ key) (hempty : (n.registry other).plugs = []) :
    n.Leaves (n.tearDown other) key := by
  unfold tearDown
  split
  · exact .refl n key
  split
  · dsimp only
    let n₁ := n.modifySplice other fun s => { s with active := false }
    let n₂ := (n₁.link (n₁.previous? other)).putHook (n₁.previous? other)
    have hfirst : n.Leaves n₁ key := n.leaves_modifySplice key other fun _ _ heq => absurd heq hne
    have hslot : n₁.Leaves n₂ key := (n₁.leaves_link _ key).trans (leaves_putHook _ _ key)
    have hdone : n.Dwindles n₁ := n.dwindles_modifySplice other fun _ _ h => h
    have hdwindles : n.Dwindles n₂ := hdone.trans ((n₁.dwindles_link _).trans (dwindles_putHook _ _))
    have hnone : (n₂.registry other).plugs = [] := List.subset_nil.1 (hempty ▸ hdwindles other)
    refine (hfirst.trans hslot).trans (n₂.leaves_onRegistry hne ?_)
    rw [Registry.unplugEverything_of_empty hnone]
  · exact .refl n key

/-- How many handles a splice counts. -/
def handlesOf (n : Network) (key : Nat) : Nat := (n.splices[key]?.map Splice.handles).getD 0

/-- So it is when its last handle goes. -/
theorem leaves_dropSplice (n : Network) {key other : Nat} (hne : other ≠ key)
    (hempty : (n.registry other).plugs = []) : n.Leaves (n.dropSplice other) key := by
  unfold dropSplice
  split
  · exact .refl n key
  · rename_i t _
    have htear : n.Leaves (if t.handles ≤ 1 then n.tearDown other else n) key := by
      split
      · exact n.leaves_tearDown hne hempty
      · exact .refl n key
    refine .trans ?_ (leaves_disposeWithin _ _ other key)
    exact htear.trans (leaves_modifySplice _ key other fun _ _ heq => absurd heq hne)

/-- A handle that is not the last one can go. -/
theorem leaves_dropSplice_self (n : Network) {key : Nat} (hmore : 1 < n.handlesOf key) :
    n.Leaves (n.dropSplice key) key := by
  unfold dropSplice
  unfold handlesOf at hmore
  split
  · exact .refl n key
  · rename_i t ht
    rw [ht] at hmore
    change 1 < t.handles at hmore
    refine .trans ?_ (leaves_disposeWithin _ _ key key)
    rw [if_neg (Nat.not_le.2 hmore)]
    refine n.leaves_modifySplice key key fun s hs _ => ⟨rfl, rfl, fun _ => ?_⟩
    obtain rfl := Option.some.inj (ht.symm.trans hs)
    exact Nat.sub_pos_of_lt hmore

end Network

/-! ## Acts -/

/-- The consumers of one splice write the table with it. -/
def Act.isOwn (key : Nat) : Act → Prop
  | .splice (.plug other ..) | .splice (.unplug other _) | .splice (.unplugEverything other)
  | .splice (.tearDown other) => other = key
  | _ => False

/-- Nobody but one splice writes the interface table by an act, and the splice is left a handle. -/
def Act.Suits (n : Network) (key : Nat) : Act → Prop
  | .host (.addInterface ..) | .host (.changeTable _) => False
  | .splice (.plug other ..) => other = key
  | .splice (.unplug other _) | .splice (.unplugEverything other) | .splice (.tearDown other) =>
    other = key ∨ (n.registry other).plugs = []
  | .splice (.drop other) => if other = key then 1 < n.handlesOf key else (n.registry other).plugs = []
  | _ => True

namespace Scene

open Network (Leaves)

/-- An act on the host that suits a splice leaves it alone. -/
theorem leaves_host (s : Scene) {key : Nat} {act : HostAct} (h : (Act.host act).Suits s.network key) :
    s.network.Leaves (s.stepHost act).network key := by
  cases act with
  | exchangeHook hook => exact s.network.leaves_exchangeHook hook key
  | putHook hook => exact (s.network.leaves_link hook key).trans (Network.leaves_putHook _ hook key)
  | unlink hook => exact s.network.leaves_unlink hook key
  | addInterface name mac mtu flags => exact h.elim
  | changeTable f => exact h.elim
  | _ => exact (s.routine_host rfl rfl s.network.listsOnly_true).leaves key

/-- So does one on splices that is not its own. -/
theorem leaves_splice (s : Scene) {key : Nat} {act : SpliceAct} (h : (Act.splice act).Suits s.network key)
    (hown : ¬ (Act.splice act).isOwn key) : s.network.Leaves (s.stepSplice act).network key := by
  cases act with
  | start budget => exact s.network.leaves_startSplice budget key
  | add budget => exact s.network.leaves_push _ s.network.slot key
  | tellPrevious other hook => exact s.network.leaves_tellPrevious other hook key
  | hold other => exact s.network.leaves_modifySplice key other fun _ _ _ => ⟨rfl, rfl, fun _ => Nat.succ_pos _⟩
  | drop other =>
    change if _ then _ else _ at h
    split at h
    · rename_i heq
      rw [heq]
      exact s.network.leaves_dropSplice_self h
    · rename_i hne
      exact s.network.leaves_dropSplice hne h
  | plug other name id mac => exact absurd h hown
  | unplug other id =>
    have hempty := h.resolve_left hown
    refine s.network.leaves_onRegistry (f := fun r p => r.unplug p id) hown ?_
    rw [Registry.unplug_of_empty hempty]
  | unplugEverything other =>
    have hempty := h.resolve_left hown
    refine s.network.leaves_onRegistry (f := Registry.unplugEverything) hown ?_
    rw [Registry.unplugEverything_of_empty hempty]
  | tearDown other => exact s.network.leaves_tearDown hown (h.resolve_left hown)
  | _ => exact (s.routine_splice rfl rfl s.network.listsOnly_true).leaves key

/-- Whatever suits a splice and is not its own act leaves it alone. -/
theorem leaves_perform (s : Scene) {key : Nat} {act : Act} (h : act.Suits s.network key) (hown : ¬ act.isOwn key) :
    s.network.Leaves (s.perform act).network key := by
  cases act with
  | host act => exact s.leaves_host h
  | splice act => exact s.leaves_splice h hown
  | _ => exact (s.routine_perform rfl rfl s.network.listsOnly_true (Act.fillsOnly_true _ _)).leaves key

end Scene

end Patchbay
