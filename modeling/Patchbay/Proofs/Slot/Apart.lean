import Patchbay.Proofs.Inbox.Capture
import Patchbay.Proofs.Registry.Roster
import Patchbay.Proofs.Slot.Beside

/-!
# `Proofs.Slot.Apart` — plugs of different splices have different lines

A plug is let in with a line of its own, and no act moves a plug from one splice to another. So what one splice puts
on the line of its plug is not seen on that of any other.

## Contents
* `Network.Dwindles` — registries only lose plugs; `Network.dwindles_disposeWithin` and its kin;
* `Scene.dwindles_perform` — so they do in every act that does not plug;
* `Network.Apart` — no line belongs to plugs of two splices; `Scene.apart_run`.
-/

namespace Patchbay

namespace Registry

/-- To unplug an id brings in no plug. -/
theorem plugs_unplug_subset (r : Registry) (p : Backplane) (id : Nat) :
    (r.unplug p id).2.1.plugs ⊆ r.plugs := by
  unfold unplug
  cases r.byId? id with
  | none => exact fun _ h => h
  | some plug => exact List.eraseP_subset

/-- Nor to unplug many. -/
theorem plugs_unplugEach_subset (r : Registry) (p : Backplane) (ids : List Nat) :
    (r.unplugEach p ids).2.1.plugs ⊆ r.plugs := by
  induction ids generalizing r p with
  | nil => exact fun _ h => h
  | cons id rest ih => exact List.Subset.trans (ih _ _) (r.plugs_unplug_subset p id)

end Registry

namespace Network

variable {n n' n'' : Network}

/-! ## Registries that only lose plugs -/

/-- What is plugged was plugged before. -/
def Dwindles (n n' : Network) : Prop :=
  ∀ key, (n'.registry key).plugs ⊆ (n.registry key).plugs

/-- Where nothing happens, nothing comes in. -/
theorem Dwindles.refl (n : Network) : n.Dwindles n := fun _ _ h => h

/-- What comes in nowhere on the way comes in nowhere at all. -/
theorem Dwindles.trans (h : n.Dwindles n') (h' : n'.Dwindles n'') : n.Dwindles n'' :=
  fun key => List.Subset.trans (h' key) (h key)

/-- The same splices list the same plugs. -/
theorem Beside.dwindles (h : n.Beside n') : n.Dwindles n' := by
  intro key
  rw [registry, registry, h.splices]
  exact fun _ hplug => hplug

/-- A change of one splice shows in its own registry and in no other. -/
theorem registry_modifySplice (n : Network) (key other : Nat) (f : Splice → Splice) :
    (n.modifySplice key f).registry other =
      if key = other then ((n.splices[other]?.map fun s => (f s).registry).getD {})
      else n.registry other := by
  unfold registry modifySplice
  rw [Array.getElem?_modify]
  split
  · rw [Option.map_map]
    rfl
  · rfl

/-- A splice that is changed lists no further plug if the change adds none. -/
theorem dwindles_modifySplice (n : Network) (key : Nat) {f : Splice → Splice}
    (hf : ∀ s, (f s).registry.plugs ⊆ s.registry.plugs) : n.Dwindles (n.modifySplice key f) := by
  intro other
  rw [registry_modifySplice]
  split
  · rw [registry]
    cases n.splices[other]? with
    | none => exact fun _ h => h
    | some s => exact hf s
  · exact fun _ h => h

/-- What is plugged behind an operation on a registry comes out of it, or was plugged in another splice. -/
theorem mem_onRegistry {α : Type} {key other : Nat} {f : Registry → Backplane → α × Registry × Backplane}
    {plug : Plug} (h : plug ∈ ((n.onRegistry key f).2.registry other).plugs) :
    (key = other ∧ plug ∈ (f (n.registry key) n.plane).2.1.plugs) ∨ plug ∈ (n.registry other).plugs := by
  unfold onRegistry at h
  generalize f (n.registry key) n.plane = result at h ⊢
  obtain ⟨answer, registry, plane⟩ := result
  change plug ∈ (({ n with plane := plane }.modifySplice key _).registry other).plugs at h
  rw [registry_modifySplice] at h
  split at h
  · rename_i heq
    cases hget : n.splices[other]? with
    | none =>
      rw [hget] at h
      exact absurd h List.not_mem_nil
    | some s =>
      rw [hget] at h
      exact .inl ⟨heq, h⟩
  · exact .inr h

/-- So it is with a change of its registry. -/
theorem dwindles_onRegistry {α : Type} (n : Network) (key : Nat)
    {f : Registry → Backplane → α × Registry × Backplane} (hf : ∀ r p, (f r p).2.1.plugs ⊆ r.plugs) :
    n.Dwindles (n.onRegistry key f).2 := by
  intro other plug hplug
  rcases mem_onRegistry hplug with ⟨rfl, hmem⟩ | hmem
  · exact hf _ _ hmem
  · exact hmem

/-! ## Splices come and go -/

theorem dwindles_link (n : Network) (hook : Option Hook) : n.Dwindles (n.link hook) := by
  unfold link
  split
  · exact .refl n
  · exact n.dwindles_modifySplice _ fun _ _ h => h

theorem dwindles_abandon (n : Network) (key : Nat) : n.Dwindles (n.abandon key) := by
  have hplugs : n.Dwindles { n with plane := (n.registry key).plugs.foldl Backplane.dropPlug n.plane } :=
    Beside.dwindles ⟨rfl, rfl⟩
  exact hplugs.trans (dwindles_modifySplice _ key fun _ => List.nil_subset _)

/-- Splices that go list nothing any more. -/
theorem dwindles_disposeWithin (fuel : Nat) (n : Network) (key : Nat) :
    n.Dwindles (disposeWithin fuel n key) := by
  -- on the fuel, since the end of one splice may end the one before it
  induction fuel generalizing n key with
  | zero => exact .refl n
  | succ fuel ih =>
    unfold disposeWithin
    split
    · exact .refl n
    split
    · dsimp only
      split
      · exact n.dwindles_abandon key
      · refine .trans ?_ (ih _ _)
        exact (n.dwindles_abandon key).trans (dwindles_modifySplice _ _ fun _ _ h => h)
    · exact .refl n

theorem dwindles_unlink (n : Network) (hook : Option Hook) : n.Dwindles (n.unlink hook) := by
  unfold unlink
  split
  · exact .refl n
  · refine .trans ?_ (dwindles_disposeWithin _ _ _)
    exact n.dwindles_modifySplice _ fun _ _ h => h

theorem dwindles_putHook (n : Network) (hook : Option Hook) : n.Dwindles (n.putHook hook) :=
  dwindles_unlink { n with slot := hook } n.slot

theorem dwindles_tellPrevious (n : Network) (key : Nat) (hook : Option Hook) :
    n.Dwindles (n.tellPrevious key hook) := by
  unfold tellPrevious
  split
  · exact n.dwindles_modifySplice key fun _ _ h => h
  · exact n.dwindles_unlink hook

theorem dwindles_addSplice (n : Network) (budget : Nat) : n.Dwindles (n.addSplice budget).2 := by
  intro key
  show (((n.splices.push { budget := budget })[key]?.map Splice.registry).getD {}).plugs ⊆ _
  rw [Array.getElem?_push]
  split
  · exact List.nil_subset _
  · exact fun _ h => h

theorem dwindles_startSplice (n : Network) (budget : Nat) : n.Dwindles (n.startSplice budget).2 := by
  have hslot := (n.dwindles_addSplice budget).trans
    (dwindles_link { (n.addSplice budget).2 with slot := some (.splice n.splices.size) }
      (some (.splice n.splices.size)))
  have htold := hslot.trans (dwindles_tellPrevious _ n.splices.size n.slot)
  exact htold.trans (dwindles_modifySplice _ n.splices.size fun _ _ h => h)

/-- A splice that takes itself out of the slot only loses plugs. -/
theorem dwindles_tearDown (n : Network) (key : Nat) : n.Dwindles (n.tearDown key) := by
  unfold tearDown
  split
  · exact .refl n
  split
  · dsimp only
    -- read from the last step to the first
    refine .trans ?_ (dwindles_onRegistry (f := Registry.unplugEverything) _ key
      fun r p => r.plugs_unplugEach_subset p r.ids)
    refine .trans ?_ (dwindles_putHook _ _)
    refine .trans ?_ (dwindles_link _ _)
    exact n.dwindles_modifySplice key fun _ _ h => h
  · exact .refl n

theorem dwindles_dropSplice (n : Network) (key : Nat) : n.Dwindles (n.dropSplice key) := by
  unfold dropSplice
  split
  · exact .refl n
  · rename_i s _
    have htear : n.Dwindles (if s.handles ≤ 1 then n.tearDown key else n) := by
      split
      · exact n.dwindles_tearDown key
      · exact .refl n
    refine .trans ?_ (dwindles_disposeWithin _ _ key)
    exact htear.trans (dwindles_modifySplice _ key fun _ _ h => h)

end Network

/-! ## Acts -/

namespace Scene

open Network (Beside Dwindles)

/-- On the host no plug comes in. -/
theorem dwindles_host (s : Scene) (act : HostAct) : s.network.Dwindles (s.stepHost act).network := by
  cases act with
  | exchangeHook hook => exact Network.dwindles_link { s.network with slot := some hook } (some hook)
  | putHook hook => exact (s.network.dwindles_link hook).trans (Network.dwindles_putHook _ hook)
  | unlink hook => exact s.network.dwindles_unlink hook
  | _ => exact (s.beside_host rfl).dwindles

/-- Among the acts on splices it is only plugging that lists a further plug. -/
theorem dwindles_splice (s : Scene) {act : SpliceAct} (h : ∀ key name id mac, act ≠ .plug key name id mac) :
    s.network.Dwindles (s.stepSplice act).network := by
  cases act with
  | start budget => exact s.network.dwindles_startSplice budget
  | add budget => exact s.network.dwindles_addSplice budget
  | tellPrevious key hook => exact s.network.dwindles_tellPrevious key hook
  | hold key => exact s.network.dwindles_modifySplice key fun _ _ h => h
  | drop key => exact s.network.dwindles_dropSplice key
  | tearDown key => exact s.network.dwindles_tearDown key
  | plug key name id mac => exact absurd rfl (h key name id mac)
  | unplug key id =>
    exact s.network.dwindles_onRegistry (f := fun r p => r.unplug p id) key
      fun r p => r.plugs_unplug_subset p id
  | unplugEverything key =>
    exact s.network.dwindles_onRegistry (f := Registry.unplugEverything) key
      fun r p => r.plugs_unplugEach_subset p r.ids
  | _ => exact (s.routine_splice rfl rfl s.network.listsOnly_true).beside.dwindles

/-- Whatever is done but plugging, no registry lists more than before. -/
theorem dwindles_perform (s : Scene) {act : Act} (h : ∀ key name id mac, act ≠ .splice (.plug key name id mac)) :
    s.network.Dwindles (s.perform act).network := by
  cases act with
  | host act => exact s.dwindles_host act
  | splice act => exact s.dwindles_splice fun key name id mac heq => h key name id mac (congrArg Act.splice heq)
  | _ => exact (s.routine_perform rfl rfl s.network.listsOnly_true (Act.fillsOnly_true _ _)).beside.dwindles

end Scene

/-! ## A line belongs to one splice -/

namespace Network

variable {n n' : Network}

/-- Plugs that share a line are plugs of one splice. -/
def Apart (n : Network) : Prop :=
  ∀ ⦃i j : Nat⦄ ⦃p q : Plug⦄, p ∈ (n.registry i).plugs → q ∈ (n.registry j).plugs → p.key = q.key → i = j

/-- Plugs that are apart stay apart while none comes in. -/
theorem Apart.dwindles (h : n.Apart) (hd : n.Dwindles n') : n'.Apart :=
  fun _ _ _ _ hp hq heq => h (hd _ hp) (hd _ hq) heq

/-- A plug that is let in has a line that no plug had before. -/
theorem Apart.plug (h : n.Apart) {k : Memory.Bookkeeping} {past : History} {e : Estate}
    (hs : n.Settled k past e) (key : Nat)
    (name : String) (id : Nat) (mac : Mac) : (n.plug key name id mac).2.Apart := by
  -- what is plugged is as before, or it is the new plug
  have hmem {i : Nat} {p : Plug} (hp : p ∈ ((n.plug key name id mac).2.registry i).plugs) :
      p ∈ (n.registry i).plugs ∨ (key = i ∧ p.key = n.plane.lines.size) := by
    rcases mem_onRegistry hp with ⟨rfl, hout⟩ | hold
    · rcases (n.registry key).plug_cases n.plane (n.budgetOf key) name id mac with
        ⟨_, m, heq⟩ | ⟨i, realMac, record, m, -, -, -, -, heq⟩
      · rw [heq] at hout
        exact .inl hout
      · rw [heq, List.mem_append, List.mem_singleton] at hout
        rcases hout with hold | rfl
        · exact .inl hold
        · exact .inr ⟨rfl, rfl⟩
    · exact .inl hold
  have hlined {i : Nat} {p : Plug} (hp : p ∈ (n.registry i).plugs) : p.key ≠ n.plane.lines.size :=
    (hs.plugged hp).lined.ne
  intro i j p q hp hq heq
  rcases hmem hp with hold | ⟨rfl, hnew⟩ <;> rcases hmem hq with hold' | ⟨rfl, hnew'⟩
  · exact h hold hold' heq
  · exact absurd (heq.trans hnew') (hlined hold)
  · exact absurd (heq.symm.trans hnew) (hlined hold')
  · rfl

end Network

namespace Scene

/-- A plug that comes in has a line that no other plug has, so each act leaves plugs apart. -/
theorem apart_step {s : Scene} {past : History} (hs : s.Settled past) (h : s.network.Apart) (t : Turn) :
    (s.step t).network.Apart := by
  obtain ⟨act, lane, heap⟩ := t
  let n := s.network.setMemory { s.network.memory with heap := heap, lane := lane }
  have hn : n.Apart := h.dwindles (Network.Dwindles.refl s.network)
  have hturn (act : Act) (hact : ∀ key name id mac, act ≠ .splice (.plug key name id mac)) :
      (s.step ⟨act, lane, heap⟩).network.Apart := by
    exact hn.dwindles (dwindles_perform { s with network := n } hact)
  by_cases hplug : ∃ key name id mac, act = .splice (.plug key name id mac)
  · obtain ⟨key, name, id, mac, rfl⟩ := hplug
    have hs' := Network.trades_setMemory
      (s.network.memory.trades_turn (k := Memory.Tallied) heap lane) rfl rfl
    obtain ⟨past', -, hs'⟩ := hs' past (estate s.items) (by rw [zero_add]; exact hs)
    show (if key < _ then _ else _ : Scene).network.Apart
    split
    · exact hn.plug hs' key name id mac
    · exact hn
  · exact hturn act fun key name id mac heq => hplug ⟨key, name, id, mac, heq⟩

/-- After any run of acts, plugs of different splices have different lines. -/
theorem apart_run (limit : Option Nat) (turns : List Turn) : ((start limit).run turns).network.Apart := by
  have hrun {s : Scene} (turns : List Turn) : (∃ past, s.Settled past) → s.network.Apart →
      (s.run turns).network.Apart := by
    induction turns generalizing s with
    | nil => exact fun _ h => h
    | cons t rest ih =>
      rintro ⟨past, hs⟩ h
      obtain ⟨past', -, hs'⟩ := hs.step t
      exact ih ⟨past', hs'⟩ (apart_step hs h t)
  refine hrun turns ⟨_, Settled.start limit⟩ fun i j p q hp => ?_
  exact absurd hp List.not_mem_nil

end Scene

end Patchbay
