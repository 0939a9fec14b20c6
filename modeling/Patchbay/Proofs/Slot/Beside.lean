import Patchbay.Proofs.Slot.Routine

/-!
# `Proofs.Slot.Beside` — acts that leave the seats of the splices as they are

What is routine touches neither the slot nor the splices. Plugging and unplugging change the registry of a splice and
nothing else of it. What is left are the few acts by which hooks come and go.

## Contents
* `Splice.seat`, `Network.SameSeats` — slot and splices are the same but for what is plugged;
* `Network.size_dropSplice` and its kin, `Scene.size_perform` — no splice is ever taken off the list;
* `Scene.beside_host`, `Scene.sameSeats_step` — what acts that do not handle hooks leave alone.
-/

namespace Patchbay

/-! ## Slot and splices but for what is plugged -/

/-- A splice as its neighbours in the slot know it: all of it but what is plugged. -/
def Splice.seat (s : Splice) : Splice := { s with registry := {} }

namespace Network

/-- The slot is the same, and so are the splices but for what is plugged. -/
structure SameSeats (n n' : Network) : Prop where
  seats : n'.splices.map Splice.seat = n.splices.map Splice.seat
  slot : n'.slot = n.slot

variable {n n' n'' : Network}

/-- Where nothing happens, all seats are the same. -/
theorem SameSeats.refl (n : Network) : n.SameSeats n := ⟨rfl, rfl⟩

/-- The same splices have the same seats. -/
theorem Beside.sameSeats (h : n.Beside n') : n.SameSeats n' := ⟨by rw [h.splices], h.slot⟩

/-- Seats that stay the same on the way are the same in the end. -/
theorem SameSeats.trans (h : n.SameSeats n') (h' : n'.SameSeats n'') : n.SameSeats n'' :=
  ⟨h'.seats.trans h.seats, h'.slot.trans h.slot⟩

/-- A change of a splice that leaves its own seat leaves all of them. -/
theorem sameSeats_modifySplice (n : Network) (key : Nat) {f : Splice → Splice}
    (hf : ∀ s, (f s).seat = s.seat) : n.SameSeats (n.modifySplice key f) := by
  refine ⟨?_, rfl⟩
  show (n.splices.modify key f).map Splice.seat = _
  apply Array.ext_getElem?
  intro i
  rw [Array.getElem?_map, Array.getElem?_map, Array.getElem?_modify]
  split
  · cases n.splices[i]? with
    | none => rfl
    | some s => exact congrArg some (hf s)
  · rfl

/-- What a splice lists is no matter of its seat. -/
theorem sameSeats_onRegistry {α : Type} (n : Network) (key : Nat)
    (f : Registry → Backplane → α × Registry × Backplane) : n.SameSeats (n.onRegistry key f).2 := by
  unfold onRegistry
  generalize f (n.registry key) n.plane = result
  obtain ⟨answer, registry, plane⟩ := result
  have hplane : n.SameSeats { n with plane := plane } := ⟨rfl, rfl⟩
  exact hplane.trans (sameSeats_modifySplice _ key fun _ => rfl)

namespace SameSeats

/-- Where the seats are the same there are as many splices. -/
theorem size_eq (h : n.SameSeats n') : n'.splices.size = n.splices.size := by
  have := congrArg Array.size h.seats
  rwa [Array.size_map, Array.size_map] at this

theorem getElem?_seat (h : n.SameSeats n') (key : Nat) :
    n'.splices[key]?.map Splice.seat = n.splices[key]?.map Splice.seat := by
  rw [← Array.getElem?_map, ← Array.getElem?_map, h.seats]

/-- What can be told from the seat of a splice is the same. -/
theorem bind_getElem? {α : Type} {f : Splice → Option α} (h : n.SameSeats n') (hf : ∀ s, f s.seat = f s)
    (key : Nat) : n'.splices[key]?.bind f = n.splices[key]?.bind f := by
  have hseat : f = f ∘ Splice.seat := funext fun s => (hf s).symm
  rw [hseat, ← Option.bind_map, ← Option.bind_map, h.getElem?_seat]

/-- They remember the same hooks. -/
theorem previous?_eq (h : n.SameSeats n') (key : Nat) : n'.previous? key = n.previous? key := by
  rw [previous?, previous?, h.bind_getElem? fun _ => rfl]

end SameSeats

/-! ## No splice is ever taken off the list -/

section Size

variable (n : Network) (key : Nat) (hook : Option Hook)

theorem size_modifySplice (f : Splice → Splice) : (n.modifySplice key f).splices.size = n.splices.size :=
  Array.size_modify

theorem size_onRegistry {α : Type} (f : Registry → Backplane → α × Registry × Backplane) :
    (n.onRegistry key f).2.splices.size = n.splices.size :=
  (n.sameSeats_onRegistry key f).size_eq

theorem size_link : (n.link hook).splices.size = n.splices.size := by
  unfold link
  split
  · rfl
  · exact n.size_modifySplice _ _

/-- A splice that went is still counted, so keys stay what they were. -/
theorem size_disposeWithin (fuel : Nat) : (disposeWithin fuel n key).splices.size = n.splices.size := by
  induction fuel generalizing n key with
  | zero => rfl
  | succ fuel ih =>
    have habandon : (n.abandon key).splices.size = n.splices.size := Array.size_modify
    unfold disposeWithin
    split
    · rfl
    split
    · dsimp only
      split
      · exact habandon
      · exact (ih _ _).trans (((n.abandon key).size_modifySplice _ _).trans habandon)
    · rfl

theorem size_unlink : (n.unlink hook).splices.size = n.splices.size := by
  unfold unlink
  split
  · rfl
  · exact (size_disposeWithin _ _ _).trans (n.size_modifySplice _ _)

theorem size_tellPrevious : (n.tellPrevious key hook).splices.size = n.splices.size := by
  unfold tellPrevious
  split
  · exact n.size_modifySplice key _
  · exact n.size_unlink hook

/-- It is counted when it took itself out of the slot, too. -/
theorem size_tearDown : (n.tearDown key).splices.size = n.splices.size := by
  unfold tearDown
  split
  · rfl
  split
  · dsimp only
    -- read from the last step to the first
    refine (size_onRegistry _ key _).trans ?_
    refine (size_unlink { Network.link _ _ with slot := _ } _).trans ?_
    exact (size_link _ _).trans (n.size_modifySplice key _)
  · rfl

theorem size_dropSplice : (n.dropSplice key).splices.size = n.splices.size := by
  unfold dropSplice
  split
  · rfl
  · refine (size_disposeWithin _ key _).trans ((size_modifySplice _ key _).trans ?_)
    split
    · exact n.size_tearDown key
    · rfl

/-- A splice that is started comes behind the others. -/
theorem size_startSplice (budget : Nat) : (n.startSplice budget).2.splices.size = n.splices.size + 1 := by
  unfold startSplice addSplice exchangeHook
  dsimp only
  rw [size_modifySplice, size_tellPrevious, size_link]
  exact Array.size_push _

end Size

end Network

/-! ## Acts -/

namespace Scene

open Network (Beside SameSeats)

/-- An act on the host that leaves the hooks alone leaves slot and splices alone. -/
theorem beside_host (s : Scene) {act : HostAct} (h : (Act.host act).handlesHooks = false) :
    s.network.Beside (s.stepHost act).network := by
  cases act with
  | addInterface name mac mtu flags => exact ⟨rfl, rfl⟩
  | changeTable f => exact ⟨rfl, rfl⟩
  | _ => exact (s.routine_host h rfl s.network.listsOnly_true).beside

/-- So does an act on splices, as far as seats go. -/
theorem sameSeats_splice (s : Scene) {act : SpliceAct} (h : (Act.splice act).handlesHooks = false) :
    s.network.SameSeats (s.stepSplice act).network := by
  cases act with
  | plug key name id mac =>
    unfold stepSplice
    dsimp only
    split
    · exact s.network.sameSeats_onRegistry key fun r p => r.plug p (s.network.budgetOf key) name id mac
    · exact .refl _
  | unplug key id => exact s.network.sameSeats_onRegistry key fun r p => r.unplug p id
  | unplugEverything key => exact s.network.sameSeats_onRegistry key Registry.unplugEverything
  | _ => first | exact (s.routine_splice rfl rfl s.network.listsOnly_true).beside.sameSeats | cases h

/-- Whatever is done but with hooks, the seats are the same. -/
theorem sameSeats_perform (s : Scene) {act : Act} (h : act.handlesHooks = false) :
    s.network.SameSeats (s.perform act).network := by
  cases act with
  | host act => exact (s.beside_host h).sameSeats
  | splice act => exact s.sameSeats_splice h
  | _ => exact (s.routine_perform rfl rfl s.network.listsOnly_true (Act.fillsOnly_true _ _)).beside.sameSeats

/-- Splices are added, and none is ever taken off the list. -/
theorem size_perform (s : Scene) (act : Act) : s.network.splices.size ≤ (s.perform act).network.splices.size := by
  by_cases hhooks : act.handlesHooks = false
  · exact Nat.le_of_eq (s.sameSeats_perform hhooks).size_eq.symm
  cases act with
  | host act =>
    refine Nat.le_of_eq (Eq.symm ?_)
    cases act with
    | exchangeHook hook => exact Network.size_link _ _
    | putHook hook => exact (Network.size_unlink _ _).trans (s.network.size_link hook)
    | unlink hook => exact s.network.size_unlink hook
    | _ => exact absurd rfl hhooks
  | splice act =>
    cases act with
    | start budget =>
      refine Nat.le_trans (Nat.le_succ _) (Nat.le_of_eq (Eq.symm ?_))
      exact s.network.size_startSplice budget
    | add budget => exact Nat.le_of_lt (Nat.lt_of_lt_of_eq (Nat.lt_succ_self _) (Array.size_push _).symm)
    | tellPrevious key hook => exact Nat.le_of_eq (s.network.size_tellPrevious key hook).symm
    | hold key => exact Nat.le_of_eq (s.network.size_modifySplice key _).symm
    | drop key => exact Nat.le_of_eq (s.network.size_dropSplice key).symm
    | tearDown key => exact Nat.le_of_eq (s.network.size_tearDown key).symm
    | _ => exact absurd rfl hhooks
  | _ => exact absurd rfl hhooks

/-- Whatever does not handle hooks leaves slot and splices as they are, but for what is plugged. -/
theorem sameSeats_step (s : Scene) {t : Turn} (h : t.act.handlesHooks = false) :
    s.network.SameSeats (s.step t).network := by
  have hturn : s.network.SameSeats
      (s.network.setMemory { s.network.memory with heap := t.heap, lane := t.lane }) := ⟨rfl, rfl⟩
  exact hturn.trans (sameSeats_perform { s with network := _ } h)

end Scene

end Patchbay
