import Patchbay.Proofs.Module.Consumer
import Patchbay.Proofs.Registry.Tidy
import Patchbay.Proofs.Slot.Sight
import Patchbay.Proofs.Slot.Teardown

/-!
# `Proofs.Module.Lodging` — a splice that comes and goes

A splice is started on a host, its consumer plugs and unplugs, and traffic goes on. In the end it is torn down and let
go. What it displaced is back in the slot then, with as many links as before, the interfaces are as they were, and no
frame waits on its lines. So another one can come.

## Contents
* `Network.dispose_last`, `Network.tearDown_eq` — what a splice does at its end;
* `Network.Around` — a host as it was found, but for one splice, the slot and the attachments;
* `Network.Vacated`, `Network.Lodged` — a host without a guest, and with one;
* `Vacated.start`, `Lodged.leave`, `Lodged.dropLast` — the guest comes and goes;
* `Network.AsFound`, `Vacated.asFound` — nobody can tell that it was there;
* `Network.Dwells` — the same as what is said of a consumer; it outlasts all that the consumer does.
-/

namespace Patchbay

namespace Network

variable {n n' found : Network} {key handles : Nat} {guest : Option Nat} {s : Splice}

/-! ## The end of a splice -/

theorem disposeWithin_of_held (fuel : Nat) (hs : n.splices[key]? = some s) (hheld : ¬ (s.handles = 0 ∧ s.links = 0)) :
    disposeWithin fuel n key = n := by
  cases fuel with
  | zero => rfl
  | succ fuel =>
    rw [disposeWithin, hs]
    exact if_neg hheld

/-- With its last holder a splice ends that has nothing plugged. What it remembers loses a link, and does not end if it
has another one. -/
theorem dispose_last (hs : n.splices[key]? = some s) (hnobody : s.handles = 0 ∧ s.links = 0)
    (hplugs : s.registry.plugs = [])
    (hspare : ∀ older, s.previous.join.bind Hook.spliceKey? = some older →
      older ≠ key ∧ ∃ t, n.splices[older]? = some t ∧ 1 < t.links) :
    (n.dispose key).slot = n.slot ∧ (n.dispose key).plane = n.plane ∧ ((n.dispose key).registry key).plugs = [] ∧
      ∀ other, key ≠ other → (n.dispose key).splices[other]? =
        n.splices[other]?.map fun t => { t with links := t.links - refers s.previous.join other } := by
  -- two steps at most: the splice ends, and what it remembers is still held
  obtain ⟨fuel, hfuel⟩ := Nat.exists_eq_succ_of_ne_zero (Nat.ne_zero_of_lt (Array.getElem?_eq_some_iff.1 hs).1)
  have hplane : (n.abandon key).plane = n.plane := by
    show (n.registry key).plugs.foldl Backplane.dropPlug n.plane = n.plane
    rw [registry_eq hs, hplugs]
    rfl
  have hself := getElem?_abandon_self hs
  have hothers {other : Nat} (hne : key ≠ other) := getElem?_abandon_of_ne (n := n) hne
  rw [dispose, hfuel, disposeWithin, hs]
  dsimp only
  rw [if_pos hnobody]
  split
  · rename_i hnone
    refine ⟨rfl, hplane, ?_, fun other hne => ?_⟩
    · rw [registry_eq hself]
    · simp only [refers_eq_zero hnone, Nat.sub_zero]
      rw [hothers hne]
      exact Option.map_id'.symm
  · rename_i older holder
    obtain ⟨hne, t, ht, hlinks⟩ := hspare older holder
    rw [disposeWithin_of_held fuel (getElem?_modifySplice_self ((hothers hne.symm).trans ht) _)
      fun hnone => (Nat.sub_pos_of_lt hlinks).ne' hnone.2]
    refine ⟨rfl, hplane, ?_, fun other hother => ?_⟩
    · rw [registry_modifySplice, if_neg hne, registry_eq hself]
    · rw [getElem?_modifySplice, hothers hother]
      split
      · rename_i heq
        rw [← heq, refers_eq_one holder]
      · rename_i hdifferent
        simp only [refers_of_ne holder hdifferent, Nat.sub_zero]
        exact Option.map_id'.symm

/-- A splice in the slot that still has a handle when it is torn down leaves the slot for what it remembers, and unplugs
everything. -/
theorem tearDown_eq (hs : n.splices[key]? = some s) (hactive : s.active = true) (hheld : 0 < s.handles)
    (hslot : n.slot = some (.splice key)) :
    let n₁ := (n.modifySplice key fun s => { s with active := false }).link (n.previous? key)
    let n₂ := { n₁ with slot := n.previous? key }.modifySplice key fun s => { s with links := s.links - 1 }
    n.tearDown key = (n₂.unplugEverything key).2 := by
  intro n₁ n₂
  have hget : n₂.splices[key]? =
      some { s with active := false, links := s.links + refers (n.previous? key) key - 1 } := by
    refine getElem?_modifySplice_self (n := { n₁ with slot := _ }) (s := { s with active := false, links := _ }) ?_ _
    show n₁.splices[key]? = _
    rw [getElem?_link, getElem?_modifySplice_self hs]
    rfl
  have hkept : n₂.dispose key = n₂ := disposeWithin_of_held _ hget fun hnone => hheld.ne' hnone.1
  have hprevious : (n.modifySplice key fun s => { s with active := false }).previous? key = n.previous? key :=
    n.previous?_modifySplice key key fun _ => rfl
  have hput : n₁.putHook (n.previous? key) = n₂ := by
    have hold : n₁.slot = some (.splice key) := (slot_link _ _).trans hslot
    rw [putHook, hold]
    exact hkept
  unfold tearDown
  rw [hs]
  dsimp only
  rw [if_pos hactive, hprevious]
  show ((n₁.putHook (n.previous? key)).onRegistry key _).2 = _
  rw [hput]
  rfl

/-! ## Around a guest -/

/-- The splices that were found are as they were found, of those that came later at most a guest has anything plugged,
and frames wait only where they could wait then, or for plugs. -/
structure Around (found : Network) (guest : Option Nat) (n : Network) : Prop where
  size : found.splices.size ≤ n.splices.size
  old : ∀ key < found.splices.size, n.splices[key]? = found.splices[key]?
  spent : ∀ key, found.splices.size ≤ key → guest ≠ some key → (n.registry key).plugs = []
  tidy : n.Tidy found.plane.lines.size

namespace Around

theorem routine (h : Around found guest n) (hr : n.Routine n.Lists n') : Around found guest n' where
  size := h.size.trans_eq (congrArg Array.size hr.beside.splices.symm)
  old := by rw [hr.beside.splices]; exact h.old
  spent key hkey hguest := by rw [hr.beside.registry_eq]; exact h.spent key hkey hguest
  tidy := h.tidy.routine hr

/-- The guest changes, but not in what is plugged. -/
theorem modifySplice {f : Splice → Splice} (h : Around found (some key) n) (hnewer : found.splices.size ≤ key)
    (hf : ∀ s, (f s).registry = s.registry) : Around found (some key) (n.modifySplice key f) where
  size := h.size.trans_eq (n.size_modifySplice key f).symm
  old other hother := by
    rw [getElem?_modifySplice_of_ne (hother.trans_le hnewer).ne']
    exact h.old other hother
  spent other hother hguest := by
    rw [registry_modifySplice_of n key other hf]
    exact h.spent other hother hguest
  tidy := h.tidy.of_plugs (fun _ hwaits => .inl hwaits) fun other =>
    congrArg Registry.plugs (registry_modifySplice_of n key other hf)

/-- The guest does something with its registry. -/
theorem onRegistry {α : Type} {f : Registry → Backplane → α × Registry × Backplane} (h : Around found (some key) n)
    (hnewer : found.splices.size ≤ key) (hs : n.splices[key]? = some s)
    (hclears : (n.registry key).Clears n.plane (f (n.registry key) n.plane).2.1 (f (n.registry key) n.plane).2.2) :
    Around found (some key) (n.onRegistry key f).2 where
  size := h.size.trans_eq (n.size_onRegistry key f).symm
  old other hother := by
    rw [getElem?_onRegistry_of_ne (hother.trans_le hnewer).ne']
    exact h.old other hother
  spent other hother hguest := by
    rw [registry_congr (getElem?_onRegistry_of_ne fun heq => hguest (congrArg some heq))]
    exact h.spent other hother hguest
  tidy := h.tidy.onRegistry hs hclears

/-- A link more to what was found is one to what is there. -/
theorem link (h : Around found guest n) (hook : Option Hook) : Around (found.link hook) guest (n.link hook) where
  size := by
    rw [size_link, size_link]
    exact h.size
  old other hother := by
    rw [size_link] at hother
    rw [getElem?_link, getElem?_link, h.old other hother]
  spent other hother hguest := by
    rw [size_link] at hother
    rw [registry_link]
    exact h.spent other hother hguest
  tidy := by
    rw [plane_link]
    refine h.tidy.of_plugs (fun line hwaits => .inl ?_) fun key => congrArg Registry.plugs (n.registry_link hook key)
    rwa [plane_link] at hwaits

theorem slot (h : Around found guest n) (hook : Option Hook) : Around found guest { n with slot := hook } :=
  ⟨h.size, h.old, h.spent, h.tidy⟩

end Around

/-! ## With and without a guest -/

/-- A host that a splice can be started on: its interfaces are told apart, every hook is held, the slot leads to a base
and plugs are on lines that are there. -/
structure Ready (found : Network) : Prop where
  distinct : found.plane.table.Distinct
  held : found.Held none
  grounded : ∃ base keys, found.Grounded base found.slot keys
  lined : found.ListsOnly (· < found.plane.lines.size)

theorem Ready.links_pos (h : found.Ready) {older : Nat} (holder : found.slot.bind Hook.spliceKey? = some older) :
    ∃ t, found.splices[older]? = some t ∧ 0 < t.links := by
  have hone : refers found.slot older = 1 := refers_eq_one holder
  have hrefs := found.refers_slot_le older
  have hpos : 0 < found.refs older + refers none older := by omega
  obtain ⟨t, ht⟩ := h.held.exists_splice hpos
  exact ⟨t, ht, by have := h.held.le_links ht; omega⟩

/-- What is there besides does not stand in the slot. -/
theorem Ready.refers_eq_zero (h : found.Ready) (hnewer : found.splices.size ≤ key) : refers found.slot key = 0 := by
  refine if_neg fun hslot => ?_
  obtain ⟨t, ht, -⟩ := h.links_pos hslot
  exact absurd (Array.getElem?_eq_some_iff.1 ht).1 (Nat.not_lt.2 hnewer)

/-- What a splice is beside its budget and its plugs. -/
def Seated (n : Network) (key : Nat) (previous : Option Hook) (active : Bool) (handles links : Nat) : Prop :=
  ∃ s, n.splices[key]? = some s ∧ s.previous = some previous ∧ s.active = active ∧ s.handles = handles ∧ s.links = links

theorem Seated.sameSeats {previous : Option Hook} {active : Bool} {links : Nat}
    (h : n.Seated key previous active handles links) (hs : n.SameSeats n') :
    n'.Seated key previous active handles links := by
  obtain ⟨s, hget, hprevious, hactive, hhandles, hlinks⟩ := h
  obtain ⟨t, ht, heq⟩ := hs.symm.exists_seat hget
  exact ⟨t, ht, (congrArg Splice.previous heq).trans hprevious, (congrArg Splice.active heq).trans hactive,
    (congrArg Splice.handles heq).trans hhandles, (congrArg Splice.links heq).trans hlinks⟩

/-- A host is as it was found, but for memory, splices that have ended, and what arrived. -/
structure Vacated (found n : Network) : Prop extends Around found none n where
  slot : n.slot = found.slot
  attachments : n.plane.table.attachments = found.plane.table.attachments

/-- A guest is in the slot on top of what was found there, and its marks are all that is new about the interfaces. -/
structure Lodged (found : Network) (key handles : Nat) (n : Network) : Prop extends Around found (some key) n where
  newer : found.splices.size ≤ key
  slot : n.slot = some (.splice key)
  seat : n.Seated key found.slot true handles 1
  signed : n.Signed key found.plane.table

/-- The guest is out of the slot, but its last handle is still there, and so is the link to what it displaced. -/
structure Leaving (found : Network) (key : Nat) (n : Network) : Prop
    extends Around (found.link found.slot) (some key) n where
  newer : found.splices.size ≤ key
  slot : n.slot = found.slot
  seat : n.Seated key found.slot false 1 0
  unplugged : (n.registry key).plugs = []
  attachments : n.plane.table.attachments = found.plane.table.attachments

namespace Vacated

theorem refl (found : Network) : Vacated found found where
  size := Nat.le_refl _
  old _ _ := rfl
  spent key hkey _ := by
    rw [registry, Array.getElem?_eq_none hkey]
    rfl
  tidy _ hwaits := .inl hwaits.lt
  slot := rfl
  attachments := rfl

theorem routine (h : Vacated found n) (hr : n.Routine n.Lists n') : Vacated found n' where
  toAround := h.toAround.routine hr
  slot := hr.beside.slot.trans h.slot
  attachments := (congrArg Table.attachments hr.table_eq).trans h.attachments

theorem start (h : Vacated found n) (hr : found.Ready) (budget : Nat) :
    Lodged found n.splices.size 1 (n.startSplice budget).2 := by
  have hnew := n.getElem?_startSplice budget n.splices.size
  rw [if_pos rfl] at hnew
  have hold (key : Nat) (hne : n.splices.size ≠ key) : (n.startSplice budget).2.splices[key]? = n.splices[key]? := by
    rw [getElem?_startSplice, if_neg hne.symm]
  have hplane : (n.startSplice budget).2.plane = n.plane := by rw [startSplice_eq]
  have hplugs (key : Nat) : ((n.startSplice budget).2.registry key).plugs = (n.registry key).plugs := by
    by_cases heq : n.splices.size = key
    · subst heq
      rw [registry_eq hnew, registry, Array.getElem?_size]
      rfl
    · rw [registry_congr (hold key heq)]
  refine ⟨⟨?_, fun key hkey => ?_, fun key hkey _ => ?_, ?_⟩, h.size, n.slot_startSplice budget,
    ⟨_, hnew, congrArg some h.slot, rfl, rfl, rfl⟩, ?_⟩
  · rw [size_startSplice]
    exact Nat.le_succ_of_le h.size
  · rw [hold key (hkey.trans_le h.size).ne']
    exact h.old key hkey
  · rw [hplugs]
    exact h.spent key hkey (Option.some_ne_none key).symm
  · refine h.tidy.of_plugs (fun line hwaits => .inl ?_) hplugs
    rwa [hplane] at hwaits
  · have hd := hr.distinct.of_indices (Table.indices_congr h.attachments)
    exact (n.signed_startSplice budget hd).of_attachments h.attachments

end Vacated

namespace Lodged

theorem routine (h : Lodged found key handles n) (hr : n.Routine n.Lists n') : Lodged found key handles n' where
  toAround := h.toAround.routine hr
  newer := h.newer
  slot := hr.beside.slot.trans h.slot
  seat := h.seat.sameSeats hr.beside.sameSeats
  signed := h.signed.leaves (hr.leaves key)

theorem hold (h : Lodged found key handles n) : Lodged found key (handles + 1) (n.holdSplice key) where
  toAround := h.toAround.modifySplice h.newer fun _ => rfl
  newer := h.newer
  slot := h.slot
  seat := by
    obtain ⟨s, hs, hprevious, hactive, hhandles, hlinks⟩ := h.seat
    exact ⟨_, getElem?_modifySplice_self hs _, hprevious, hactive, congrArg (· + 1) hhandles, hlinks⟩
  signed := h.signed.leaves (n.leaves_modifySplice key key fun _ _ _ => ⟨rfl, rfl, fun _ => Nat.succ_pos _⟩)

/-- A handle goes, but not the last one. -/
theorem drop (h : Lodged found key (handles + 2) n) : Lodged found key (handles + 1) (n.dropSplice key) := by
  obtain ⟨s, hs, hprevious, hactive, hhandles, hlinks⟩ := h.seat
  have hmore : ¬ s.handles ≤ 1 := by omega
  have hdrop : n.dropSplice key = n.modifySplice key fun s => { s with handles := s.handles - 1 } := by
    have hget := getElem?_modifySplice_self hs fun s => { s with handles := s.handles - 1 }
    unfold dropSplice
    rw [hs]
    dsimp only
    rw [if_neg hmore]
    exact disposeWithin_of_held _ hget fun hnone => hmore (Nat.le_of_sub_eq_zero hnone.1)
  rw [hdrop]
  refine ⟨h.toAround.modifySplice h.newer fun _ => rfl, h.newer, h.slot,
    ⟨_, getElem?_modifySplice_self hs _, hprevious, hactive, ?_, hlinks⟩, ?_⟩
  · show s.handles - 1 = handles + 1
    omega
  · refine h.signed.leaves (n.leaves_modifySplice key key fun t ht _ => ⟨rfl, rfl, fun _ => ?_⟩)
    obtain rfl := Option.some.inj (hs.symm.trans ht)
    exact Nat.sub_pos_of_lt (Nat.lt_of_not_le hmore)

/-- The consumer does something with its registry. -/
theorem onRegistry {α : Type} {f : Registry → Backplane → α × Registry × Backplane} (h : Lodged found key handles n)
    (hclears : (n.registry key).Clears n.plane (f (n.registry key) n.plane).2.1 (f (n.registry key) n.plane).2.2)
    (hsigned : (n.onRegistry key f).2.Signed key found.plane.table) :
    Lodged found key handles (n.onRegistry key f).2 := by
  obtain ⟨s, hs, -⟩ := h.signed.held
  have hseats := n.sameSeats_onRegistry key f
  exact ⟨h.toAround.onRegistry h.newer hs hclears, h.newer, hseats.slot.trans h.slot, h.seat.sameSeats hseats, hsigned⟩

variable (hr : found.Ready)
include hr

theorem plug (h : Lodged found key handles n) (name : String) (id : Nat) (mac : Mac) :
    Lodged found key handles (n.plug key name id mac).2 :=
  h.onRegistry (Registry.clears_plug _ n.plane (n.budgetOf key) name id mac) (h.signed.plug hr.distinct name id mac)

theorem unplug (h : Lodged found key handles n) (id : Nat) : Lodged found key handles (n.unplug key id).2 :=
  h.onRegistry (Registry.clears_unplug h.signed.sound n.plane id) (h.signed.unplug hr.distinct id)

theorem unplugEverything (h : Lodged found key handles n) : Lodged found key handles (n.unplugEverything key).2 :=
  h.onRegistry (Registry.clears_unplugEach h.signed.sound n.plane _) (h.signed.unplugEverything hr.distinct)

/-- The guest is torn down. -/
theorem tearDown (h : Lodged found key 1 n) : Leaving found key (n.tearDown key) := by
  obtain ⟨s, hs, hprevious, hactive, hhandles, hlinks⟩ := h.seat
  have hslot : n.previous? key = found.slot := by rw [previous?_eq hs, hprevious, Option.join_some]
  have hattachments := (h.signed.tearDown_restores_iff hr.distinct).2 (.inl ⟨s, hs, hactive⟩)
  let n₁ := (n.modifySplice key fun s => { s with active := false }).link found.slot
  let n₂ := { n₁ with slot := found.slot }.modifySplice key fun s => { s with links := s.links - 1 }
  have heq : n.tearDown key = (n₂.unplugEverything key).2 := by
    have htear := tearDown_eq hs hactive (hhandles ▸ Nat.one_pos) h.slot
    rwa [hslot] at htear
  -- up to the last step nothing changes but the seats
  have hnewer : (found.link found.slot).splices.size ≤ key := (found.size_link found.slot).trans_le h.newer
  have haround : Around (found.link found.slot) (some key) n₂ := by
    have hfirst := h.toAround.modifySplice (f := fun s => { s with active := false }) h.newer fun _ => rfl
    exact ((hfirst.link found.slot).slot found.slot).modifySplice hnewer fun _ => rfl
  have hget : n₂.splices[key]? = some { s with active := false, links := s.links + refers found.slot key - 1 } := by
    refine getElem?_modifySplice_self (n := { n₁ with slot := _ }) (s := { s with active := false, links := _ }) ?_ _
    show n₁.splices[key]? = _
    rw [getElem?_link, getElem?_modifySplice_self hs]
    rfl
  have hsound : (n₂.registry key).Sound := by
    have hregistry : n₂.registry key = n.registry key := (registry_eq hget).trans (registry_eq hs).symm
    rw [hregistry]
    exact h.signed.sound
  have hseats := n₂.sameSeats_onRegistry key Registry.unplugEverything
  rw [heq] at hattachments ⊢
  refine ⟨haround.onRegistry hnewer hget (Registry.clears_unplugEach hsound n₂.plane _), h.newer, hseats.slot,
    Seated.sameSeats ⟨_, hget, hprevious, rfl, hhandles, ?_⟩ hseats, ?_, hattachments⟩
  · show s.links + refers found.slot key - 1 = 0
    rw [hlinks, hr.refers_eq_zero h.newer]
  · rw [Network.unplugEverything, registry_eq (registry_onRegistry_self hget Registry.unplugEverything).1]
    exact Registry.plugs_unplugEverything hsound n₂.plane

end Lodged

namespace Leaving

theorem old_eq (h : Leaving found key n) {older : Nat} (holder : older < found.splices.size) :
    n.splices[older]? = found.splices[older]?.map fun t => { t with links := t.links + refers found.slot older } := by
  rw [h.old older (holder.trans_eq (found.size_link _).symm), getElem?_link]

/-- What the guest displaced can spare the link that the guest has on it. -/
theorem spare (h : Leaving found key n) (hr : found.Ready) {older : Nat}
    (holder : found.slot.bind Hook.spliceKey? = some older) :
    older ≠ key ∧ ∃ t, n.splices[older]? = some t ∧ 1 < t.links := by
  obtain ⟨t, ht, hpos⟩ := hr.links_pos holder
  have hlt : older < found.splices.size := (Array.getElem?_eq_some_iff.1 ht).1
  refine ⟨(hlt.trans_le h.newer).ne, { t with links := t.links + refers found.slot older }, ?_, ?_⟩
  · rw [h.old_eq hlt, ht]
    rfl
  · show 1 < t.links + refers found.slot older
    rw [refers_eq_one holder]
    exact Nat.succ_lt_succ hpos

/-- The last handle goes, and the link to what the guest displaced. -/
theorem drop (h : Leaving found key n) (hr : found.Ready) : Vacated found (n.dropSplice key) := by
  obtain ⟨s, hs, hprevious, hdone, hhandles, hlinks⟩ := h.seat
  let n₁ := n.modifySplice key fun s => { s with handles := s.handles - 1 }
  have hdrop : n.dropSplice key = n₁.dispose key := by
    unfold dropSplice
    rw [hs]
    dsimp only
    rw [if_pos hhandles.le, tearDown_of_inactive hs hdone]
  have hget : n₁.splices[key]? = some { s with handles := s.handles - 1 } := getElem?_modifySplice_self hs _
  have hothers : ∀ other, key ≠ other → n₁.splices[other]? = n.splices[other]? := fun other hne => by
    rw [getElem?_modifySplice_of_ne hne]
  -- it remembers what was in the slot that was found
  have hremembers : s.previous.join = found.slot := by rw [hprevious, Option.join_some]
  have hnobody : s.handles - 1 = 0 ∧ s.links = 0 := ⟨by omega, hlinks⟩
  have hunplugged : s.registry.plugs = [] := by rw [← registry_eq hs, h.unplugged]
  obtain ⟨hslot, hplane, hspent, hrest⟩ := dispose_last hget hnobody hunplugged fun older holder => by
    obtain ⟨hne, t, ht, hlinks⟩ := h.spare hr (hremembers ▸ holder)
    exact ⟨hne, t, (hothers older hne.symm).trans ht, hlinks⟩
  have hplugs (other : Nat) : ((n₁.dispose key).registry other).plugs = (n.registry other).plugs := by
    by_cases heq : key = other
    · rw [← heq, hspent, h.unplugged]
    · rw [registry, hrest other heq, Option.map_map, hothers other heq]
      rfl
  rw [hdrop]
  refine ⟨⟨?_, fun other hother => ?_, fun other hother _ => ?_, ?_⟩, hslot.trans h.slot, ?_⟩
  · rw [← hdrop, size_dropSplice, ← found.size_link found.slot]
    exact h.size
  · -- a link more and a link less
    have hne : key ≠ other := (hother.trans_le h.newer).ne'
    rw [hrest other hne, hothers other hne, h.old_eq hother, Option.map_map, hremembers]
    simp only [Function.comp_def, Nat.add_sub_cancel]
    exact Option.map_id'
  · rw [hplugs]
    by_cases heq : key = other
    · rw [← heq]
      exact h.unplugged
    · exact h.spent other ((found.size_link _).trans_le hother) fun hsome => heq (Option.some.inj hsome)
  · have htidy := h.tidy
    rw [plane_link] at htidy
    refine htidy.of_plugs (fun line hwaits => .inl ?_) hplugs
    rwa [hplane] at hwaits
  · rw [hplane]
    exact h.attachments

end Leaving

/-- The guest goes, and the host is as it was found. -/
theorem Lodged.leave (h : Lodged found key 1 n) (hr : found.Ready) :
    Vacated found ((n.tearDown key).dropSplice key) :=
  (h.tearDown hr).drop hr

/-- So it is if nobody tears the guest down before its last handle goes. -/
theorem Lodged.dropLast (h : Lodged found key 1 n) (hr : found.Ready) : Vacated found (n.dropSplice key) := by
  have hsame : n.dropSplice key = (n.tearDown key).dropSplice key := by
    obtain ⟨s, hs, -, -, hhandles, -⟩ := h.seat
    obtain ⟨t, ht, -, hdone, -⟩ := (h.tearDown hr).seat
    -- the last handle tears down what is not torn down yet
    unfold dropSplice
    rw [hs, ht]
    dsimp only
    rw [if_pos hhandles.le, tearDown_of_inactive ht hdone, ite_self]
  rw [hsame]
  exact h.leave hr

/-! ## What can be told -/

/-- A host is as it was found for all that can be told: slot, interfaces, splices, the hooks on the way, and what
becomes of frames, which fare as if there were only the splices that were found. Nothing is plugged into splices that
were added, and nothing waits on lines that were. -/
structure AsFound (found n : Network) : Prop where
  slot : n.slot = found.slot
  attachments : n.plane.table.attachments = found.plane.table.attachments
  splices : ∀ key < found.splices.size, n.splices[key]? = found.splices[key]?
  unplugged : ∀ key, found.splices.size ≤ key → (n.registry key).plugs = []
  path : n.path = found.path
  received : ∀ index c, (n.graft found.splices).receive index c = (n.receive index c).graft found.splices
  injected : ∀ index bytes cap,
    (n.graft found.splices).inject index bytes cap = (n.inject index bytes cap).graft found.splices
  sent : ∀ index bytes, (n.graft found.splices).send index bytes =
    ((n.send index bytes).1, (n.send index bytes).2.graft found.splices)
  queues : ∀ key line, found.plane.lines.size ≤ key → n.plane.lines[key]? = some line → line.queue.nodes = []

/-- On a host without a guest frames wait only where they could when it was found. -/
theorem Vacated.lt_of_waits (h : Vacated found n) (hr : found.Ready) {line : Nat} (hwaits : n.plane.Waits line) :
    line < found.plane.lines.size := by
  rcases h.tidy line hwaits with hlt | ⟨lister, plug, hplug, rfl⟩
  · exact hlt
  · rcases Nat.lt_or_ge lister found.splices.size with hold | hnew
    · rw [registry_congr (h.old lister hold)] at hplug
      exact hr.lined lister plug hplug
    · rw [h.spent lister hnew (Option.some_ne_none lister).symm] at hplug
      cases hplug

theorem Vacated.asFound (h : Vacated found n) (hr : found.Ready) : found.AsFound n := by
  obtain ⟨base, keys, hground⟩ := hr.grounded
  have hleads : n.Leads base n.slot keys := by
    rw [h.slot]
    refine hground.leads.congr fun key hkey => ?_
    rw [previous?, previous?, h.old key (hground.there key hkey)]
  have hpath : n.path = hooksOver keys base :=
    hleads.path_eq fun key hkey => (hground.there key hkey).trans_le h.size
  have hsees : n.Sees found.splices n.path := by
    intro key hkey
    rw [hpath] at hkey
    have hon : key ∈ keys := by
      rw [← filterMap_hooksOver keys base]
      exact List.mem_filterMap.2 ⟨_, hkey, rfl⟩
    exact (h.old key (hground.there key hon)).symm
  have hsame : n.path = found.path := hpath.trans hground.path_eq.symm
  have hgraft : (n.graft found.splices).path = n.path := by
    have hbeside : found.Beside (n.graft found.splices) := ⟨rfl, h.slot⟩
    rw [hbeside.path_eq, hsame]
  refine ⟨h.slot, h.attachments, h.old, fun key hkey => h.spent key hkey (Option.some_ne_none key).symm, hsame,
    hsees.receive hgraft, hsees.inject hgraft, hsees.send hgraft, ?_⟩
  intro key line hkey hline
  by_contra hwaits
  refine Nat.not_lt.2 hkey (h.lt_of_waits hr ?_)
  rw [Backplane.Waits, Array.getD_eq_getD_getElem?, hline]
  exact hwaits

/-! ## A consumer and its splice -/

/-- The splice is lodged, and its consumer has a handle on it beside the one that it is let go with, or none. -/
def Dwells (found : Network) (key : Nat) : Performer.Assertion := fun splice _ n =>
  (∀ other, splice = some other → other = key) ∧ Lodged found key (splice.toList.length + 1) n

/-- It stays so whatever the consumer does. -/
theorem Dwells.lasts (hr : found.Ready) (key : Nat) : (Dwells found key).Lasts where
  plug {other held n} h name id mac := by
    obtain ⟨hkey, hlodged⟩ := h
    obtain rfl := hkey other rfl
    exact ⟨hkey, hlodged.plug hr name id mac⟩
  unplug {other held n} h id := by
    obtain ⟨hkey, hlodged⟩ := h
    obtain rfl := hkey other rfl
    exact ⟨hkey, hlodged.unplug hr id⟩
  buffer {other n} h size := ⟨h.1, h.2.routine (n.routine_memoryFor other .plain size)⟩
  free {splice block n} h := ⟨h.1, h.2.routine (.memory n _)⟩
  drop {other n} h := by
    obtain ⟨hkey, hlodged⟩ := h
    obtain rfl := hkey other rfl
    exact ⟨nofun, hlodged.drop⟩

end Network

end Patchbay
