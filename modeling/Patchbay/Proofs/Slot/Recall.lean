import Patchbay.Proofs.Slot.Links

/-!
# `Proofs.Slot.Recall` — what a splice displaced, it remembers until it is torn down

A splice is told once what was in the slot before it, and it forgets that only at its end, when nobody holds it any
more. Whatever callers do, those who put hooks into the slot by hand included, an active splice has a handle, so it
still remembers what it displaced. A splice that is torn down never becomes active again.

## Contents
* `Splice.Recalls` — one splice, earlier and later;
* `Network.Recalls` — so it is with the splice of a key; `recalls_unlink`, `recalls_tearDown` and their kin;
* `Scene.recalls_run` — and with whatever callers do;
* `Scene.previous?_started`, `Scene.inactive_run` — what was started and is active, and what was torn down.
-/

namespace Patchbay

/-! ## One splice, earlier and later -/

/-- A splice that is active was active before. If it had a handle and had been told what was in the slot, it has one
still and remembers the same. -/
structure Splice.Recalls (s s' : Splice) : Prop where
  budget : s'.budget = s.budget
  active : s'.active = true → s.active = true
  kept : s'.active = true → 0 < s.handles → s.previous.isSome = true → 0 < s'.handles ∧ s'.previous = s.previous

namespace Splice.Recalls

variable {s s' s'' : Splice}

theorem refl (s : Splice) : s.Recalls s := ⟨rfl, id, fun _ hheld _ => ⟨hheld, rfl⟩⟩

/-- A splice that recalls on the way recalls in the end. -/
theorem trans (h : s.Recalls s') (h' : s'.Recalls s'') : s.Recalls s'' where
  budget := h'.budget.trans h.budget
  active := fun hactive => h.active (h'.active hactive)
  kept := by
    intro hactive hheld htold
    obtain ⟨hheld', hsame⟩ := h.kept (h'.active hactive) hheld htold
    obtain ⟨hheld'', hsame'⟩ := h'.kept hactive hheld' (hsame ▸ htold)
    exact ⟨hheld'', hsame'.trans hsame⟩

/-- Nothing is said of a splice that is not active any more. -/
theorem of_inactive (hbudget : s'.budget = s.budget) (hdone : s'.active = false) : s.Recalls s' where
  budget := hbudget
  active := fun hactive => absurd (hdone.symm.trans hactive) Bool.false_ne_true
  kept := fun hactive => absurd (hdone.symm.trans hactive) Bool.false_ne_true

end Splice.Recalls

namespace Network

variable {n n' n'' : Network} {key : Nat} {s s' : Splice} {f : Splice → Splice}

/-! ## The splice of a key -/

/-- The splice of a key, if there was one, is one and the same later. -/
def Recalls (n n' : Network) (key : Nat) : Prop :=
  ∀ s, n.splices[key]? = some s → ∃ s', n'.splices[key]? = some s' ∧ s.Recalls s'

theorem Recalls.refl (n : Network) (key : Nat) : n.Recalls n key := fun s hs => ⟨s, hs, .refl s⟩

/-- So it is with the splice at a key. -/
theorem Recalls.trans (h : n.Recalls n' key) (h' : n'.Recalls n'' key) : n.Recalls n'' key := by
  intro s hs
  obtain ⟨s', hs', hrecalls⟩ := h s hs
  obtain ⟨s'', hs'', hrecalls'⟩ := h' s' hs'
  exact ⟨s'', hs'', hrecalls.trans hrecalls'⟩

/-- The same splice recalls the same. -/
theorem Recalls.of_splices (h : n'.splices[key]? = n.splices[key]?) : n.Recalls n' key :=
  fun s hs => ⟨s, h.trans hs, .refl s⟩

/-- While all seats are the same, every splice recalls what stood in the slot before it. -/
theorem SameSeats.recalls (h : n.SameSeats n') (key : Nat) : n.Recalls n' key := by
  intro s hs
  obtain ⟨s', hs', heq⟩ := h.symm.exists_seat hs
  have hbudget := congrArg Splice.budget heq
  have hactive := congrArg Splice.active heq
  have hhandles := congrArg Splice.handles heq
  have hprevious := congrArg Splice.previous heq
  exact ⟨s', hs', hbudget, hactive.symm.trans, fun _ hheld _ => ⟨hheld.trans_eq hhandles.symm, hprevious⟩⟩

/-- A change of a splice is no matter of the others. -/
theorem recalls_modifySplice (n : Network) (key other : Nat)
    (hf : ∀ s, n.splices[key]? = some s → other = key → s.Recalls (f s)) : n.Recalls (n.modifySplice other f) key := by
  intro s hs
  rw [getElem?_modifySplice]
  split
  · rename_i heq
    exact ⟨f s, congrArg (Option.map f) hs, hf s hs heq⟩
  · exact ⟨s, hs, .refl s⟩

theorem recalls_link (n : Network) (hook : Option Hook) (key : Nat) : n.Recalls (n.link hook) key := by
  unfold link
  split
  · exact .refl n key
  · exact n.recalls_modifySplice key _ fun s _ _ => ⟨rfl, id, fun _ hheld _ => ⟨hheld, rfl⟩⟩

/-- What is forgotten at the end of a splice is what nobody asks it for any more. -/
theorem recalls_disposeWithin (fuel : Nat) (n : Network) (other key : Nat) :
    n.Recalls (disposeWithin fuel n other) key := by
  -- on the fuel, since the end of one splice may end the one before it
  induction fuel generalizing n other with
  | zero => exact .refl n key
  | succ fuel ih =>
    unfold disposeWithin
    split
    · exact .refl n key
    rename_i t ht
    split
    · rename_i hnobody
      have habandon : n.Recalls (n.abandon other) key := by
        let p := (n.registry other).plugs.foldl Backplane.dropPlug n.plane
        refine recalls_modifySplice { n with plane := p } key other fun s hs heq => ⟨rfl, id, fun _ hheld _ => ?_⟩
        subst heq
        obtain rfl := Option.some.inj (ht.symm.trans hs)
        exact absurd hnobody.1 hheld.ne'
      dsimp only
      split
      · exact habandon
      · refine (habandon.trans ?_).trans (ih _ _)
        exact recalls_modifySplice _ key _ fun s _ _ => ⟨rfl, id, fun _ hheld _ => ⟨hheld, rfl⟩⟩
    · exact .refl n key

/-- A hook place that is given up may end splices, but makes none forget. -/
theorem recalls_unlink (n : Network) (hook : Option Hook) (key : Nat) : n.Recalls (n.unlink hook) key := by
  unfold unlink
  split
  · exact .refl n key
  · refine .trans ?_ (recalls_disposeWithin _ _ _ key)
    exact n.recalls_modifySplice key _ fun s _ _ => ⟨rfl, id, fun _ hheld _ => ⟨hheld, rfl⟩⟩

theorem recalls_putHook (n : Network) (hook : Option Hook) (key : Nat) : n.Recalls (n.putHook hook) key :=
  recalls_unlink { n with slot := hook } n.slot key

/-- What comes to the slot is no matter of what splices recall. -/
theorem recalls_exchangeHook (n : Network) (hook : Hook) (key : Nat) : n.Recalls (n.exchangeHook hook).2 key :=
  recalls_link { n with slot := some hook } (some hook) key

/-- Only what a splice is told first counts. -/
theorem recalls_tellPrevious (n : Network) (other : Nat) (hook : Option Hook) (key : Nat) :
    n.Recalls (n.tellPrevious other hook) key := by
  unfold tellPrevious
  split
  · rename_i huntold
    refine n.recalls_modifySplice key other fun s hs heq => ⟨rfl, id, fun _ _ htold => ?_⟩
    rw [heq, hs] at huntold
    change s.previous = none at huntold
    rw [huntold] at htold
    cases htold
  · exact n.recalls_unlink hook key

/-- Nor is a further splice behind the others. -/
theorem recalls_push (n : Network) (t : Splice) (hook : Option Hook) (key : Nat) :
    n.Recalls { n with splices := n.splices.push t, slot := hook } key := by
  intro s hs
  have hlt : key < n.splices.size := (Array.getElem?_eq_some_iff.1 hs).1
  refine ⟨s, ?_, .refl s⟩
  show (n.splices.push t)[key]? = some s
  rw [Array.getElem?_push, if_neg hlt.ne, hs]

theorem recalls_startSplice (n : Network) (budget key : Nat) : n.Recalls (n.startSplice budget).2 key := by
  rw [startSplice_eq]
  exact n.recalls_push _ _ key

/-- What is done behind the first step of a teardown. -/
theorem recalls_tearDown_rest (n : Network) (hook : Option Hook) (other key : Nat) :
    n.Recalls (((n.link hook).putHook hook).onRegistry other Registry.unplugEverything).2 key := by
  refine .trans ?_ ((sameSeats_onRegistry _ other _).recalls key)
  exact (n.recalls_link hook key).trans (recalls_putHook _ hook key)

/-- A splice that takes itself out of the slot forgets, and the others recall as before. -/
theorem recalls_tearDown (n : Network) (other key : Nat) : n.Recalls (n.tearDown other) key := by
  unfold tearDown
  split
  · exact .refl n key
  split
  · refine .trans ?_ (recalls_tearDown_rest _ _ other key)
    exact n.recalls_modifySplice key other fun s _ _ => .of_inactive rfl rfl
  · exact .refl n key

/-- It is not in the slot any more then. -/
theorem inactive_tearDown (hs : (n.tearDown key).splices[key]? = some s) : s.active = false := by
  unfold tearDown at hs
  split at hs
  · rename_i hnone
    cases hnone.symm.trans hs
  rename_i t ht
  split at hs
  · let n₁ := n.modifySplice key fun s => { s with active := false }
    have hget : n₁.splices[key]? = some { t with active := false } := getElem?_modifySplice_self ht _
    obtain ⟨s', hs', hrecalls⟩ := n₁.recalls_tearDown_rest (n₁.previous? key) key key _ hget
    obtain rfl := Option.some.inj (hs'.symm.trans hs)
    exact Bool.eq_false_iff.2 fun hactive => Bool.false_ne_true (hrecalls.active hactive)
  · rename_i hinactive
    obtain rfl := Option.some.inj (ht.symm.trans hs)
    exact Bool.eq_false_iff.2 hinactive

/-- With its last handle a splice is torn down. -/
theorem recalls_dropSplice (n : Network) (other key : Nat) : n.Recalls (n.dropSplice other) key := by
  unfold dropSplice
  split
  · exact .refl n key
  rename_i t ht
  refine .trans ?_ (recalls_disposeWithin _ _ other key)
  split
  · refine (n.recalls_tearDown other key).trans (recalls_modifySplice _ key other fun s hs heq => ?_)
    subst heq
    have hdone := inactive_tearDown hs
    exact .of_inactive rfl hdone
  · rename_i hmore
    refine n.recalls_modifySplice key other fun s hs heq => ⟨rfl, id, fun _ _ _ => ⟨?_, rfl⟩⟩
    subst heq
    obtain rfl := Option.some.inj (ht.symm.trans hs)
    exact Nat.sub_pos_of_lt (Nat.lt_of_not_le hmore)

end Network

/-! ## Whatever callers do -/

namespace Scene

variable {s : Scene} {key : Nat}

/-- Whatever is done, a splice recalls what stood in the slot before it for as long as it is in there. -/
theorem recalls_perform (s : Scene) (act : Act) (key : Nat) : s.network.Recalls (s.perform act).network key := by
  by_cases hhooks : act.handlesHooks = false
  · exact (s.sameSeats_perform hhooks).recalls key
  cases act with
  | host act =>
    cases act with
    | exchangeHook hook => exact s.network.recalls_exchangeHook hook key
    | putHook hook => exact (s.network.recalls_link hook key).trans (Network.recalls_putHook _ hook key)
    | unlink hook => exact s.network.recalls_unlink hook key
    | _ => exact absurd rfl hhooks
  | splice act =>
    cases act with
    | start budget => exact s.network.recalls_startSplice budget key
    | add budget => exact s.network.recalls_push _ s.network.slot key
    | tellPrevious other hook => exact s.network.recalls_tellPrevious other hook key
    | hold other =>
      exact s.network.recalls_modifySplice key other fun s _ _ =>
        ⟨rfl, id, fun _ hheld _ => ⟨Nat.lt_succ_of_lt hheld, rfl⟩⟩
    | drop other => exact s.network.recalls_dropSplice other key
    | tearDown other => exact s.network.recalls_tearDown other key
    | _ => exact absurd rfl hhooks
  | _ => exact absurd rfl hhooks

theorem recalls_step (s : Scene) (t : Turn) (key : Nat) : s.network.Recalls (s.step t).network key := by
  have hturn : s.network.Recalls
      (s.network.setMemory { s.network.memory with heap := t.heap, lane := t.lane }) key := .of_splices rfl
  exact hturn.trans (recalls_perform { s with network := _ } t.act key)

/-- So it does through a run of acts. -/
theorem recalls_run (s : Scene) (turns : List Turn) (key : Nat) : s.network.Recalls (s.run turns).network key := by
  induction turns generalizing s with
  | nil => exact .refl _ key
  | cons t rest ih =>
    exact (s.recalls_step t key).trans (ih (s.step t))

/-- Whatever is done behind the start of a splice, it is the one that was started. -/
theorem recalls_started (s : Scene) (budget : Nat) (lane : Budget.Lane) (heap : Budget.Heap) (rest : List Turn) :
    ∃ splice, ((s.step ⟨.splice (.start budget), lane, heap⟩).run rest).network.splices[s.network.splices.size]? =
        some splice ∧
      Splice.Recalls { budget := budget, previous := some s.network.slot, active := true, handles := 1, links := 1 }
        splice := by
  let m : Memory := { s.network.memory with heap := heap, lane := lane }
  have hstart := ((s.network.setMemory m).getElem?_startSplice budget s.network.splices.size).trans (if_pos rfl)
  exact recalls_run (s.step ⟨.splice (.start budget), lane, heap⟩) rest _ _ hstart

/-- As long as it is active it remembers what was in the slot. -/
theorem previous?_started (s : Scene) (budget : Nat) (lane : Budget.Lane) (heap : Budget.Heap) (rest : List Turn)
    (hactive : ((s.step ⟨.splice (.start budget), lane, heap⟩).run rest).network.IsActive s.network.splices.size) :
    ((s.step ⟨.splice (.start budget), lane, heap⟩).run rest).network.previous? s.network.splices.size =
      s.network.slot := by
  obtain ⟨splice, hs, hrecalls⟩ := s.recalls_started budget lane heap rest
  obtain ⟨t, ht, hdone⟩ := hactive
  obtain rfl := Option.some.inj (hs.symm.trans ht)
  obtain ⟨-, hsame⟩ := hrecalls.kept hdone Nat.one_pos rfl
  rw [Network.previous?_eq hs, hsame]
  rfl

/-- A splice that is not active any more stays so. -/
theorem inactive_run {splice : Splice} (hs : s.network.splices[key]? = some splice) (hdone : splice.active = false)
    (turns : List Turn) : ∃ splice', (s.run turns).network.splices[key]? = some splice' ∧ splice'.active = false := by
  obtain ⟨splice', hs', hrecalls⟩ := s.recalls_run turns key splice hs
  refine ⟨splice', hs', Bool.eq_false_iff.2 fun hactive => ?_⟩
  exact absurd (hdone.symm.trans (hrecalls.active hactive)) Bool.false_ne_true

end Scene

end Patchbay
