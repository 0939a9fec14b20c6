import Patchbay.Proofs.Registry.Plugging
import Patchbay.Proofs.Registry.Return
import Patchbay.Proofs.Slot.Recall

/-!
# `Proofs.Registry.Parting` — a splice is torn down, and everything comes back

When a splice is torn down, what it displaced is back in the slot, whatever stood there by then, and nothing is plugged
into it any more. The blocks of its plugs go back to its budget, and what waited for it goes unread. If the hook that
stood in the slot was held by nothing else, it ends too, and gives back its own plugs in the same way. Buffers that were
handed out stay good. From then on no teardown of the splice and no drop of a handle touches slot or interfaces.

## Contents
* `Network.Paid`, `Scene.paid_run` — the block of a plug is one of the consumer's budget;
* `Scene.Parted` — what a teardown leaves;
* `Scene.tearDown_parted` — in any run, the first teardown leaves that, and later ones leave everything alone;
* `Scene.not_alone_stranded` — what comes back need not be the splice's own.
-/

namespace Patchbay

open Budget (Lane Heap)

namespace Network

variable {n : Network} {key : Nat} {past : History} {e : Estate}

/-! ## Who paid for a plug -/

/-- The plugs of a splice are paid for with plain blocks of its budget. -/
def Paid (n : Network) (key : Nat) : Prop :=
  ∀ plug ∈ (n.registry key).plugs, plug.record.owner = n.budgetOf key ∧ plug.record.kind = .plain ∧
    plug.record.size = 168

/-- Later the splice has the same budget. -/
theorem Paid.of_dwindles {n' : Network} (h : n.Paid key) (hr : n.Recalls n' key) (hd : n.Dwindles n') :
    n'.Paid key := by
  intro plug hplug
  have hold := hd key hplug
  obtain ⟨s, hs⟩ : ∃ s, n.splices[key]? = some s := by
    cases hs : n.splices[key]? with
    | none =>
      rw [registry, hs] at hold
      exact absurd hold List.not_mem_nil
    | some s => exact ⟨s, rfl⟩
  obtain ⟨s', hs', hrecalls⟩ := hr s hs
  have hbudget : n'.budgetOf key = n.budgetOf key := by
    rw [budgetOf, budgetOf, hs, hs']
    exact hrecalls.budget
  rw [hbudget]
  exact h plug hold

theorem Paid.plug (h : n.Paid key) (hs : n.Settled Memory.Tallied past e) (other : Nat) (name : String) (id : Nat)
    (mac : Mac) : (n.plug other name id mac).2.Paid key := by
  have hsame : n.SameSeats (n.plug other name id mac).2 := n.sameSeats_onRegistry other _
  have hbudget : (n.plug other name id mac).2.budgetOf key = n.budgetOf key := by
    have hseat := congrArg (Option.map Splice.budget) (hsame.getElem?_seat key)
    rw [Option.map_map, Option.map_map] at hseat
    exact congrArg (Option.getD · 0) hseat
  intro plug hplug
  rw [hbudget]
  rcases mem_onRegistry hplug with ⟨rfl, hout⟩ | hold
  · rcases (n.registry other).plug_cases n.plane (n.budgetOf other) name id mac with
      ⟨_, m, heq⟩ | ⟨i, realMac, record, m, -, -, -, halloc, heq⟩
    · rw [heq] at hout
      exact h plug hout
    · rw [heq, List.mem_append, List.mem_singleton] at hout
      rcases hout with hold | rfl
      · exact h plug hold
      · -- the block was granted by the budget that was asked
        obtain ⟨b, hb, rfl, -⟩ := Memory.alloc_charged halloc
        exact ⟨hs.plane.memory.budgets.keyed hb, rfl, Budget.Contents.size_zeroed 168⟩
  · exact h plug hold

/-! ## The end of a handle -/

/-- A splice that is not active any more touches neither slot nor interfaces at its end. -/
theorem dropSplice_of_inactive {splice : Splice} (hs : n.splices[key]? = some splice) (hdone : splice.active = false) :
    (n.dropSplice key).slot = n.slot ∧ (n.dropSplice key).plane.table = n.plane.table := by
  unfold dropSplice
  rw [hs]
  dsimp only
  rw [tearDown_of_inactive hs hdone, ite_self]
  exact ⟨(ends_disposeWithin _ _ key).slot, table_disposeWithin _ _ key⟩

end Network

namespace Scene

variable {s s' : Scene} {key : Nat}

theorem paid_step {past : History} (hs : s.Settled past) (h : s.network.Paid key) (t : Turn) :
    (s.step t).network.Paid key := by
  obtain ⟨act, lane, heap⟩ := t
  let n := s.network.setMemory { s.network.memory with heap := heap, lane := lane }
  have hn : n.Paid key := h
  by_cases hplug : ∃ other name id mac, act = .splice (.plug other name id mac)
  · obtain ⟨other, name, id, mac, rfl⟩ := hplug
    have hs' := Network.trades_setMemory
      (s.network.memory.trades_turn (k := Memory.Tallied) heap lane) rfl rfl
    obtain ⟨past', -, hs'⟩ := hs' past (estate s.items) (by rw [zero_add]; exact hs)
    show (if other < _ then _ else _ : Scene).network.Paid key
    split
    · exact hn.plug hs' other name id mac
    · exact hn
  · have hdwindles : n.Dwindles (perform { s with network := n } act).network :=
      dwindles_perform { s with network := n } fun other name id mac heq => hplug ⟨other, name, id, mac, heq⟩
    exact hn.of_dwindles (recalls_perform { s with network := n } act key) hdwindles

/-- After any run of acts, plugs are paid for by the consumer they belong to. -/
theorem paid_run (limit : Option Nat) (turns : List Turn) (key : Nat) :
    ((start limit).run turns).network.Paid key := by
  have hrun {s : Scene} (turns : List Turn) : (∃ past, s.Settled past) → s.network.Paid key →
      (s.run turns).network.Paid key := by
    induction turns generalizing s with
    | nil => exact fun _ h => h
    | cons t rest ih =>
      rintro ⟨past, hs⟩ h
      obtain ⟨past', -, hs'⟩ := hs.step t
      exact ih ⟨past', hs'⟩ (paid_step hs h t)
  exact hrun turns ⟨_, Settled.start limit⟩ fun plug hplug => absurd hplug List.not_mem_nil

/-! ## What a teardown leaves -/

/-- A splice has been torn down that displaced this hook. -/
structure Parted (s s' : Scene) (key : Nat) (displaced : Option Hook) : Prop where
  slot : s'.network.slot = displaced
  registry : s'.network.registry key = {}
  /-- Other splices keep their plugs, but those that nobody holds any more, neither consumer nor hook place. -/
  others : ∀ other ≠ key, s'.network.registry other = s.network.registry other ∨
    s'.network.registry other = {} ∧ s'.network.handlesOf other = 0 ∧ s'.network.linksOf other = 0
  /-- What comes back is what depends on the splice's own plugs and on those of splices that have ended with it. -/
  yields : ∃ stranded, s.Yields s' ((s.network.registry key).plugs ++ stranded) ∧
    ∀ plug ∈ stranded, ∃ other ≠ key, plug ∈ (s.network.registry other).plugs ∧
      s'.network.registry other = {} ∧ s'.network.handlesOf other = 0 ∧ s'.network.linksOf other = 0
  /-- The figures are those of what there is, before and after, and no buffer that was handed out has gone. -/
  exact : ∃ past past', past ≤ past' ∧ s.Exact past ∧ s'.Exact past' ∧ ∀ v ∈ s.views, v.storage ∉ past'.gone

/-- An active splice is torn down of which nobody else holds a plug. -/
theorem parted_step {past : History} (hs : s.Settled past) (hapart : s.network.Apart) (hactive : s.network.IsActive key)
    (hown : ∀ plug ∈ (s.network.registry key).plugs, Item.plug plug ∉ s.items) (lane : Lane) (heap : Heap) :
    s.Parted (s.step ⟨.splice (.tearDown key), lane, heap⟩) key (s.network.previous? key) := by
  let n := s.network.setMemory { s.network.memory with heap := heap, lane := lane }
  let s' := s.step ⟨.splice (.tearDown key), lane, heap⟩
  let own := (s.network.registry key).plugs
  have hdown : n.TearsDown key s'.network := Network.IsActive.tearsDown (n := n) hactive (hs.registry_sound key)
  obtain ⟨past', hle, hs'⟩ := hs.step ⟨.splice (.tearDown key), lane, heap⟩
  have hdwindles : s.network.Dwindles s'.network := n.dwindles_tearDown key
  have hless {plug : Plug} (hplug : plug ∈ s'.plugs) : plug ∈ s.plugs := by
    rw [mem_plugs_iff] at hplug ⊢
    exact hplug.imp_right fun ⟨other, hother⟩ => ⟨other, hdwindles other hother⟩
  -- its own plugs are held by nobody else, so they are lost with it
  have hlost {plug : Plug} (hplug : plug ∈ own) : plug ∉ s'.plugs := by
    rw [mem_plugs_iff]
    rintro (hitem | ⟨other, hother⟩)
    · exact hown plug hplug hitem
    · obtain rfl := hapart hplug (hdwindles other hother) rfl
      rw [hdown.registry] at hother
      exact absurd hother List.not_mem_nil
  -- other plugs may be lost with a splice that nobody holds any more
  let stranded := s.plugs.dedup.filter fun plug => plug ∉ own ∧ plug ∉ s'.plugs
  have hgone : s.plugs.dedup.Perm ((own ++ stranded) ++ s'.plugs.dedup) :=
    perm_dedup_append (hs.registry_sound key).ids.of_map
      (fun plug hplug => (mem_plugs_iff s plug).2 (.inr ⟨key, hplug⟩)) (fun _ => hless) fun _ => hlost
  -- a line that is cleared loses its plug, for no other plug has that line
  have hloses : s.Loses s' (own ++ stranded) := by
    refine ⟨⟨past, past', hle, hs, hs'⟩, rfl, hgone, ?_⟩
    have hturn (cleared : Nat → Prop) : s.network.plane.Sheds cleared n.plane :=
      ⟨fun _ _ => rfl, rfl, (Backplane.Sheds.refl _).line⟩
    refine ((hturn _).trans hdown.plane).mono ?_
    rintro line ⟨plug, hplug, rfl⟩ other hother heq
    obtain rfl := hs.alone_plug (hless hother) ((mem_plugs_iff s plug).2 (.inr ⟨key, hplug⟩)) heq
    exact hlost hplug hother
  refine ⟨hdown.slot, hdown.registry, hdown.others, ⟨stranded, hloses.yields, fun plug hplug => ?_⟩,
    past, past', hle, hs.exact, hs'.exact, fun v hv hgone => ?_⟩
  · obtain ⟨hplug, hmissing⟩ := List.mem_filter.1 hplug
    obtain ⟨hforeign, hnone⟩ := of_decide_eq_true hmissing
    rcases (mem_plugs_iff s plug).1 (List.mem_dedup.1 hplug) with hitem | ⟨other, hother⟩
    · exact absurd ((mem_plugs_iff s' plug).2 (.inl hitem)) hnone
    · have hne : other ≠ key := by
        rintro rfl
        exact hforeign hother
      rcases hdown.others other hne with hsame | hended
      · exact absurd ((mem_plugs_iff s' plug).2 (.inr ⟨other, hsame ▸ hother⟩)) hnone
      · exact ⟨other, hne, hother, hended⟩
  · have hpointed : v.storage ∈ s'.references := List.mem_append_right _ (List.mem_map_of_mem hv)
    exact ((hs'.exact.gone v.storage).1 hgone).2 hpointed

/-- **A teardown gives back everything, and it does so once.** In any run a splice is started, and whatever else is done
by whomever, it is torn down when it still is active and nobody else holds a plug of it. Then the slot holds just the
hook that the splice displaced at its start, and nothing is plugged into it any more. All that waited for it goes
unread, with its headers and the storages that nothing else points into. The blocks of its plugs are plain ones of 168
bytes from its own budget; each budget gets back these, the blocks of the places in the queues, and those behind the
storages that go, once each. If a hook that stood in the slot is held by nobody any more, it gives back its plugs in the
same way, and nothing else comes back. Buffers that were handed out stay what they were. Whatever is done after that,
tearing the splice down again changes nothing at all, and the end of a handle touches neither slot nor interfaces. -/
theorem tearDown_parted (limit : Option Nat) (first rest : List Turn) (budget : Nat) (lane lane' : Lane)
    (heap heap' : Heap) :
    let before := (start limit).run first
    let key := before.network.splices.size
    let s := (before.step ⟨.splice (.start budget), lane, heap⟩).run rest
    let s' := s.step ⟨.splice (.tearDown key), lane', heap'⟩
    s.network.IsActive key → (∀ plug ∈ (s.network.registry key).plugs, Item.plug plug ∉ s.items) →
      s.Parted s' key before.network.slot ∧
      (∀ plug ∈ (s.network.registry key).plugs,
        plug.record.owner = budget ∧ plug.record.kind = .plain ∧ plug.record.size = 168) ∧
      ∀ later, let n := (s'.run later).network
        n.tearDown key = n ∧ (n.dropSplice key).slot = n.slot ∧ (n.dropSplice key).plane.table = n.plane.table := by
  intro before key s s' hactive hown
  have hall : s = (start limit).run (first ++ ⟨.splice (.start budget), lane, heap⟩ :: rest) := by
    rw [run_append]
    rfl
  obtain ⟨past, hs⟩ : ∃ past, s.Settled past := hall ▸ settled_run limit _
  have hapart : s.network.Apart := hall ▸ apart_run limit _
  have hpaid : s.network.Paid key := hall ▸ paid_run limit _ key
  obtain ⟨splice, hget, hrecalls⟩ := before.recalls_started budget lane heap rest
  have hbudget : s.network.budgetOf key = budget := by
    rw [Network.budgetOf, hget]
    exact hrecalls.budget
  refine ⟨?_, fun plug hplug => ?_, fun later => ?_⟩
  · have hprevious : s.network.previous? key = before.network.slot :=
      before.previous?_started budget lane heap rest hactive
    rw [← hprevious]
    exact parted_step hs hapart hactive hown lane' heap'
  · rw [← hbudget]
    exact hpaid plug hplug
  · obtain ⟨splice', hget', -⟩ := s.recalls_step ⟨.splice (.tearDown key), lane', heap'⟩ key splice hget
    obtain ⟨splice'', hget'', hdone⟩ := inactive_run hget' (Network.inactive_tearDown hget') later
    exact ⟨Network.tearDown_of_inactive hget'' hdone, Network.dropSplice_of_inactive hget'' hdone⟩

/-- A hook set of somebody else is in the slot, in front of it a splice with a frame that waits, and in front of that
one a splice with a plug that only the slot still holds. Two plugs and a place in a queue come back. -/
theorem tearDown_parted_two :
    let own : Mac := ⟨[2, 0, 0, 0, 0, 2], rfl⟩
    let foreign : Hook := .foreign ⟨"h", fun _ _ => true, fun _ _ => .ok true⟩
    let first : List Turn :=
      [{ act := .host (.addInterface "a" (some ⟨[2, 0, 0, 0, 0, 3], rfl⟩) 1500 1) },
        { act := .host (.addInterface "b" (some ⟨[2, 0, 0, 0, 0, 4], rfl⟩) 1500 1) },
        { act := .block (.addBudget 4096 false) }, { act := .host (.exchangeHook foreign) }]
    let rest : List Turn :=
      [{ act := .splice (.plug 0 "a" 3 own) }, { act := .host (.inject 1 own.octets 64) },
        { act := .splice (.add 0) }, { act := .splice (.plug 1 "b" 4 own) },
        { act := .host (.exchangeHook (.splice 1)) }, { act := .splice (.drop 1) }]
    let s := (((start none).run first).step { act := .splice (.start 0) }).run rest
    let s' := s.step { act := .splice (.tearDown 0) }
    let figures := fun s : Scene =>
      (s.memory.pool.headersLive, s.memory.budgets[0]?.map fun b => (b.account.allocations, b.account.frees))
    (s.network.IsActive 0 ∧ ∀ plug ∈ (s.network.registry 0).plugs, Item.plug plug ∉ s.items) ∧
      s.Parted s' 0 (some foreign) ∧ figures s = (1, some (3, 0)) ∧ figures s' = (0, some (3, 3)) := by
  intro own foreign first rest s s' figures
  have hactive : s.network.IsActive 0 := by decide +kernel
  have hown : ∀ plug ∈ (s.network.registry 0).plugs, Item.plug plug ∉ s.items := by
    have hitems : s.items = [] := by decide +kernel
    simp [hitems]
  have h := tearDown_parted none first rest 0 Lane.first Lane.first Heap.standard Heap.standard hactive hown
  exact ⟨⟨hactive, hown⟩, h.1, by decide +kernel, by decide +kernel⟩

/-- What comes back need not be the splice's own. In front of a splice that has no plug a registry is linked into the
slot, which plugs an interface; then its last handle goes, and only the slot still holds it. When the splice is torn
down, the block of that plug comes back. -/
theorem not_alone_stranded :
    let s := (start none).run
      [{ act := .host (.addInterface "a" (some ⟨[2, 0, 0, 0, 0, 3], rfl⟩) 1500 1) },
        { act := .block (.addBudget 4096 false) }, { act := .splice (.start 0) }, { act := .splice (.add 0) },
        { act := .host (.exchangeHook (.splice 1)) }, { act := .splice (.tellPrevious 1 (some (.splice 0))) },
        { act := .splice (.plug 1 "a" 3 ⟨[2, 0, 0, 0, 0, 2], rfl⟩) }, { act := .splice (.drop 1) }]
    let s' := s.step { act := .splice (.tearDown 0) }
    let frees := fun s : Scene => s.memory.budgets[0]?.map fun b => b.account.frees
    s.network.IsActive 0 ∧ (s.network.registry 0).plugs = [] ∧ s.items = [] ∧ frees s = some 0 ∧ frees s' = some 1 := by
  decide +kernel

end Scene

end Patchbay
