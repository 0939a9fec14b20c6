import Patchbay.Proofs.Place
import Patchbay.Proofs.Slot.Order

/-!
# `Proofs.Slot.Links` — a splice that is referred to stays as it is

A splice is referred to from the slot and by what splices remember, and counts a link for each such place. It counts a
handle for each consumer, and has one as long as it is active. It comes to its end only when it has neither; so its end
takes nothing away from the slot, from an active splice, or from whatever these lead to.

## Contents
* `Network.refs`, `Network.IsActive` — how many places refer to a splice, and whether it still has to be torn down;
* `Network.Held` — every reference has a link, and every active splice a handle;
* `Network.Keeps`, `Network.Spares` — what is active or referred to remembers what it did;
* `Held.disposeWithin`, `Held.unlink`, `Held.putBack` — so it is when a splice ends, and when the slot changes;
* `Network.Endures`, `Leads.endures` — the same over starts and ends, and that ways lead on.
-/

namespace Patchbay

namespace Network

/-- One if a hook belongs to a splice, else zero. -/
def refers (hook : Option Hook) (key : Nat) : Nat :=
  if hook.bind Hook.spliceKey? = some key then 1 else 0

/-- How many places refer to a splice: the slot, and what splices remember. -/
def refs (n : Network) (key : Nat) : Nat :=
  refers n.slot key + (n.splices.toList.map fun s => refers s.previous.join key).sum

/-- How many links a splice counts. -/
def linksOf (n : Network) (key : Nat) : Nat :=
  (n.splices[key]?.map Splice.links).getD 0

/-- A splice was started and is not torn down. -/
def IsActive (n : Network) (key : Nat) : Prop :=
  ∃ s ∈ n.splices[key]?, s.active = true

instance (n : Network) (key : Nat) : Decidable (n.IsActive key) :=
  inferInstanceAs (Decidable (∃ s ∈ n.splices[key]?, s.active = true))

/-- Every reference has a link, with a further one for a hook that stands in no place just then, and every active
splice has a handle. -/
structure Held (n : Network) (spare : Option Hook) : Prop where
  covered : ∀ key, n.refs key + refers spare key ≤ n.linksOf key
  manned : ∀ (key : Nat) (s : Splice), n.splices[key]? = some s → s.active = true → 0 < s.handles

variable {n n' n'' : Network} {key other : Nat} {hook spare spare' : Option Hook} {s : Splice} {f : Splice → Splice}

/-! ## What refers to a splice -/

theorem refers_eq_one (h : hook.bind Hook.spliceKey? = some key) : refers hook key = 1 := if_pos h

theorem refers_of_ne (h : hook.bind Hook.spliceKey? = some key) (hne : key ≠ other) : refers hook other = 0 :=
  if_neg fun heq => hne (Option.some.inj (h.symm.trans heq))

theorem refers_eq_zero (h : hook.bind Hook.spliceKey? = none) (key : Nat) : refers hook key = 0 :=
  if_neg fun heq => Option.some_ne_none key (heq.symm.trans h)

/-- What a splice was told is what it remembers. -/
theorem previous?_eq (h : n.splices[key]? = some s) : n.previous? key = s.previous.join := by
  rw [previous?, h]
  rfl

theorem refers_none (key : Nat) : refers none key = 0 := refers_eq_zero rfl key

/-- The slot refers to what is in it. -/
theorem refers_slot_le (n : Network) (key : Nat) : refers n.slot key ≤ n.refs key := Nat.le_add_right _ _

/-- A splice refers to what it remembers. -/
theorem refers_previous?_le (n : Network) (key other : Nat) : refers (n.previous? key) other ≤ n.refs other := by
  cases hget : n.splices[key]? with
  | none =>
    rw [previous?, hget]
    exact Nat.zero_le _
  | some s =>
    have hsum := sum_map_eq_add_eraseIdx (fun s : Splice => refers s.previous.join other)
      (Array.getElem?_toList.trans hget)
    rw [previous?_eq hget, refs]
    omega

/-! ## One splice changed -/

/-- A splice that is changed is changed at its own key and at no other. -/
theorem getElem?_modifySplice (n : Network) (key other : Nat) (f : Splice → Splice) :
    (n.modifySplice key f).splices[other]? =
      if key = other then n.splices[other]?.map f else n.splices[other]? :=
  Array.getElem?_modify

theorem getElem?_modifySplice_self (h : n.splices[key]? = some s) (f : Splice → Splice) :
    (n.modifySplice key f).splices[key]? = some (f s) := by
  rw [getElem?_modifySplice, if_pos rfl, h]
  rfl

theorem getElem?_modifySplice_of_ne (hne : key ≠ other) (f : Splice → Splice) :
    (n.modifySplice key f).splices[other]? = n.splices[other]? := by
  rw [getElem?_modifySplice, if_neg hne]

/-- Work on one registry leaves the other splices as they are. -/
theorem getElem?_onRegistry_of_ne {α : Type} {f : Registry → Backplane → α × Registry × Backplane}
    (hne : key ≠ other) : (n.onRegistry key f).2.splices[other]? = n.splices[other]? := by
  unfold onRegistry
  generalize f (n.registry key) n.plane = result
  obtain ⟨answer, registry, plane⟩ := result
  exact getElem?_modifySplice_of_ne (n := { n with plane := plane }) hne _

/-- A splice that is given up forgets what it had plugged and what it remembered. -/
theorem getElem?_abandon_self (h : n.splices[key]? = some s) :
    (n.abandon key).splices[key]? = some { s with registry := {}, previous := some none } :=
  getElem?_modifySplice_self (n := { n with plane := _ }) h _

/-- So it leaves the others as they are. -/
theorem getElem?_abandon_of_ne (hne : key ≠ other) : (n.abandon key).splices[other]? = n.splices[other]? :=
  getElem?_modifySplice_of_ne (n := { n with plane := _ }) hne _

/-- There is no changing a splice that is not there. -/
theorem modifySplice_of_none (h : n.splices[key]? = none) (f : Splice → Splice) : n.modifySplice key f = n := by
  have hsame : n.splices.modify key f = n.splices := by
    rw [← Array.toList_inj, Array.toList_modify, List.modify_eq_self]
    simpa using h
  rw [modifySplice, hsame]

/-- The references move with what the splice remembers. -/
theorem refs_modifySplice (h : n.splices[key]? = some s) (f : Splice → Splice) (other : Nat) :
    (n.modifySplice key f).refs other + refers s.previous.join other =
      n.refs other + refers (f s).previous.join other := by
  let g : Splice → Nat := fun s => refers s.previous.join other
  have hget : n.splices.toList[key]? = some s := Array.getElem?_toList.trans h
  have hold : (n.splices.toList.map g).sum = g s + ((n.splices.toList.eraseIdx key).map g).sum :=
    sum_map_eq_add_eraseIdx g hget
  have hnew : ((n.modifySplice key f).splices.toList.map g).sum =
      g (f s) + ((n.splices.toList.eraseIdx key).map g).sum := by
    rw [modifySplice, Array.toList_modify, List.modify_eq_set_getElem?, hget]
    exact sum_map_set g hget (f s)
  show refers n.slot other + _ + g s = refers n.slot other + _ + g (f s)
  rw [hold, hnew]
  omega

/-- Hooks are remembered as before if the change leaves them. -/
theorem refs_modifySplice_of_previous (n : Network) (key other : Nat) (hf : ∀ s, (f s).previous = s.previous) :
    (n.modifySplice key f).refs other = n.refs other := by
  cases hget : n.splices[key]? with
  | none => rw [modifySplice_of_none hget]
  | some s =>
    have hrefs := refs_modifySplice hget f other
    rw [hf] at hrefs
    exact Nat.add_right_cancel hrefs

/-- A change of one splice shows in its own hook places only. -/
theorem linksOf_modifySplice (h : n.splices[key]? = some s) (f : Splice → Splice) (other : Nat) :
    (n.modifySplice key f).linksOf other = if key = other then (f s).links else n.linksOf other := by
  rw [linksOf, getElem?_modifySplice]
  split
  · rename_i heq
    rw [← heq, h]
    rfl
  · rfl

theorem isActive_modifySplice (n : Network) (key other : Nat) (hf : ∀ s, (f s).active = s.active) :
    (n.modifySplice key f).IsActive other ↔ n.IsActive other := by
  unfold IsActive
  rw [getElem?_modifySplice]
  split
  · cases n.splices[other]? with
    | none => simp
    | some s => simp [hf]
  · rfl

/-- A splice counts at least the hook places that hold it. -/
theorem Held.le_links (h : n.Held spare) (hget : n.splices[key]? = some s) :
    n.refs key + refers spare key ≤ s.links := by
  have hcovered := h.covered key
  rwa [linksOf, hget] at hcovered

/-- What is referred to is there. -/
theorem Held.exists_splice (h : n.Held spare) (hpos : 0 < n.refs key + refers spare key) :
    ∃ s, n.splices[key]? = some s := by
  have hcovered := h.covered key
  cases hget : n.splices[key]? with
  | none =>
    rw [linksOf, hget] at hcovered
    exact absurd hcovered (Nat.not_le.2 hpos)
  | some s => exact ⟨s, rfl⟩

/-- Only the splice that the spare hook belongs to matters. -/
theorem Held.of_spare (h : n.Held spare) (hle : ∀ key, refers spare' key ≤ refers spare key) : n.Held spare' :=
  ⟨fun key => (Nat.add_le_add_left (hle key) _).trans (h.covered key), h.manned⟩

/-- A splice changed that remembers what it did: it may be given up as many links as references are. -/
theorem Held.modifySplice (h : n.Held spare) (hget : n.splices[key]? = some s) (hf : ∀ s, (f s).previous = s.previous)
    (hlinks : s.links + refers spare' key ≤ (f s).links + refers spare key)
    (hothers : ∀ other, key ≠ other → refers spare' other ≤ refers spare other)
    (hmanned : (f s).active = true → 0 < (f s).handles) : (n.modifySplice key f).Held spare' where
  covered := by
    intro other
    rw [refs_modifySplice_of_previous n key other hf, linksOf_modifySplice hget]
    split
    · rename_i heq
      subst heq
      have := h.le_links hget
      omega
    · rename_i hne
      exact (Nat.add_le_add_left (hothers other hne) _).trans (h.covered other)
  manned := by
    intro other t ht hactive
    rw [getElem?_modifySplice] at ht
    split at ht
    · rename_i heq
      rw [← heq, hget] at ht
      obtain rfl := Option.some.inj ht
      exact hmanned hactive
    · exact h.manned other t ht hactive

/-! ## What is left as it is -/

/-- The same splices are active, and what is active or still referred to remembers what it did. -/
structure Keeps (n n' : Network) : Prop where
  size : n'.splices.size = n.splices.size
  active : ∀ key, n'.IsActive key ↔ n.IsActive key
  refs : ∀ key, 0 < n'.refs key → 0 < n.refs key
  kept : ∀ key, 0 < n'.refs key ∨ n'.IsActive key → n'.previous? key = n.previous? key

/-- Moreover, the slot is the same. -/
structure Spares (n n' : Network) : Prop extends n.Keeps n' where
  slot : n'.slot = n.slot

theorem Keeps.refl (n : Network) : n.Keeps n := ⟨rfl, fun _ => Iff.rfl, fun _ h => h, fun _ _ => rfl⟩

/-- What is kept on the way is kept in the end. -/
theorem Keeps.trans (h : n.Keeps n') (h' : n'.Keeps n'') : n.Keeps n'' where
  size := h'.size.trans h.size
  active := fun key => (h'.active key).trans (h.active key)
  refs := fun key hpos => h.refs key (h'.refs key hpos)
  kept := fun key hkey => (h'.kept key hkey).trans (h.kept key (hkey.imp (h'.refs key) (h'.active key).1))

theorem Spares.refl (n : Network) : n.Spares n := ⟨.refl n, rfl⟩

/-- What is spared on the way is spared in the end. -/
theorem Spares.trans (h : n.Spares n') (h' : n'.Spares n'') : n.Spares n'' :=
  ⟨h.toKeeps.trans h'.toKeeps, h'.slot.trans h.slot⟩

/-- A splice changed, but for what it remembers and whether it is active. -/
theorem spares_modifySplice (n : Network) (key : Nat) (hprevious : ∀ s, (f s).previous = s.previous)
    (hactive : ∀ s, (f s).active = s.active) : n.Spares (n.modifySplice key f) where
  slot := rfl
  size := n.size_modifySplice key f
  active := fun other => isActive_modifySplice n key other hactive
  refs := fun other hpos => by rwa [refs_modifySplice_of_previous n key other hprevious] at hpos
  kept := fun other _ => n.previous?_modifySplice key other hprevious

/-- As many places hold a splice while all seats are the same. -/
theorem SameSeats.refs_eq (h : n.SameSeats n') (key : Nat) : n'.refs key = n.refs key := by
  have hseats : n'.splices.toList.map Splice.seat = n.splices.toList.map Splice.seat := by
    rw [← Array.toList_map, ← Array.toList_map, h.seats]
  have hmap (l : List Splice) : (l.map fun s => refers s.previous.join key) =
      (l.map Splice.seat).map fun s => refers s.previous.join key := by
    rw [List.map_map]
    rfl
  rw [refs, refs, h.slot, hmap, hmap n.splices.toList, hseats]

theorem SameSeats.symm (h : n.SameSeats n') : n'.SameSeats n := ⟨h.seats.symm, h.slot.symm⟩

/-- A splice was there before, the same but for what is plugged. -/
theorem SameSeats.exists_seat (h : n.SameSeats n') (hget : n'.splices[key]? = some s) :
    ∃ t, n.splices[key]? = some t ∧ t.seat = s.seat := by
  have hseat := h.getElem?_seat key
  rw [hget] at hseat
  exact Option.map_eq_some_iff.1 hseat.symm

theorem SameSeats.isActive (h : n.SameSeats n') (hactive : n'.IsActive key) : n.IsActive key := by
  obtain ⟨s, hget, hs⟩ := hactive
  obtain ⟨t, hget', heq⟩ := h.exists_seat hget
  exact ⟨t, hget', (congrArg Splice.active heq).trans hs⟩

/-- Where the seats are the same, every splice is spared. -/
theorem SameSeats.spares (h : n.SameSeats n') : n.Spares n' where
  slot := h.slot
  size := h.size_eq
  active := fun _ => ⟨h.isActive, h.symm.isActive⟩
  refs := fun key hpos => by rwa [h.refs_eq] at hpos
  kept := fun key _ => h.previous?_eq key

/-- And every hook place is still held. -/
theorem Held.sameSeats (h : n.Held spare) (hs : n.SameSeats n') : n'.Held spare where
  covered := fun key => by
    have hlinks : n'.linksOf key = n.linksOf key := by
      have hsome := congrArg (Option.map Splice.links) (hs.getElem?_seat key)
      rw [Option.map_map, Option.map_map] at hsome
      exact congrArg (Option.getD · 0) hsome
    rw [hs.refs_eq, hlinks]
    exact h.covered key
  manned := fun key t ht hactive => by
    obtain ⟨s, hget, heq⟩ := hs.exists_seat ht
    have hhandles : s.seat.handles = t.seat.handles := by rw [heq]
    have hmanned := h.manned key s hget ((congrArg Splice.active heq).trans hactive)
    exact hmanned.trans_eq hhandles

/-! ## The end of a splice -/

/-- What is given up without handle or link was neither referred to nor active, and what it remembered is spare. -/
theorem Held.abandon (h : n.Held none) (hget : n.splices[key]? = some s) (hhandles : s.handles = 0)
    (hlinks : s.links = 0) : (n.abandon key).Held s.previous.join ∧ n.Spares (n.abandon key) := by
  let p := (n.registry key).plugs.foldl Backplane.dropPlug n.plane
  let f : Splice → Splice := fun s => { s with registry := {}, previous := some none }
  change (({ n with plane := p } : Network).modifySplice key f).Held _ ∧
    n.Spares (({ n with plane := p } : Network).modifySplice key f)
  have hrefs (other : Nat) : (({ n with plane := p } : Network).modifySplice key f).refs other +
      refers s.previous.join other = n.refs other := refs_modifySplice (n := { n with plane := p }) hget f other
  -- nobody refers to it, since there is no link, and it is not active, since there is no handle
  have hunreferred : n.refs key = 0 := by
    have := h.le_links hget
    omega
  have hinactive : ¬ n.IsActive key := by
    rintro ⟨t, ht, hactive⟩
    obtain rfl := Option.some.inj (hget.symm.trans ht)
    have hmanned := h.manned key s hget hactive
    omega
  refine ⟨⟨fun other => ?_, fun other t ht hactive => ?_⟩, ⟨size_modifySplice _ key f, fun other => ?_,
    fun other hpos => ?_, fun other hother => ?_⟩, rfl⟩
  · rw [hrefs, linksOf_modifySplice (n := { n with plane := p }) hget]
    have hcovered := h.covered other
    split
    · rename_i heq
      rw [← heq, hunreferred]
      exact Nat.zero_le _
    · exact (Nat.le_add_right _ _).trans hcovered
  · rw [getElem?_modifySplice] at ht
    split at ht
    · rename_i heq
      obtain ⟨t', ht', rfl⟩ := Option.map_eq_some_iff.1 ht
      exact h.manned other t' ht' hactive
    · exact h.manned other t ht hactive
  · exact isActive_modifySplice (f := f) { n with plane := p } key other fun _ => rfl
  · have := hrefs other
    omega
  · -- what is referred to or active is another splice, and that is as it was
    have hne : key ≠ other := by
      rintro rfl
      rcases hother with hpos | hactive
      · have := hrefs key
        omega
      · exact hinactive ((isActive_modifySplice (f := f) { n with plane := p } key key fun _ => rfl).1 hactive)
    show (_ : Option (Option Hook)).join = _
    rw [getElem?_modifySplice_of_ne hne]
    rfl

/-- A link that nothing needs any more is taken back. -/
theorem Held.loseLink (h : n.Held hook) (hkey : hook.bind Hook.spliceKey? = some key) :
    (n.modifySplice key fun s => { s with links := s.links - 1 }).Held none ∧
      n.Spares (n.modifySplice key fun s => { s with links := s.links - 1 }) := by
  refine ⟨?_, n.spares_modifySplice key (fun _ => rfl) fun _ => rfl⟩
  have hone : refers hook key = 1 := refers_eq_one hkey
  obtain ⟨s, hget⟩ := (h.exists_splice (by omega) : ∃ s, n.splices[key]? = some s)
  have hlinks := h.le_links hget
  refine h.modifySplice hget (fun _ => rfl) ?_ (fun other hne => Nat.zero_le _) (h.manned key s hget)
  rw [hone, refers_none]
  dsimp only
  omega

/-- Splices that go take their own hook places along, and those that are held stay. -/
theorem Held.disposeWithin (h : n.Held none) (fuel : Nat) (key : Nat) :
    (disposeWithin fuel n key).Held none ∧ n.Spares (disposeWithin fuel n key) := by
  -- on the fuel: what ended refers to nothing, so the link that it leaves behind is to spare
  induction fuel generalizing n key with
  | zero => exact ⟨h, .refl n⟩
  | succ fuel ih =>
    unfold Network.disposeWithin
    split
    · exact ⟨h, .refl n⟩
    rename_i s hget
    split
    · rename_i hnobody
      obtain ⟨hheld, hspares⟩ := h.abandon hget hnobody.1 hnobody.2
      dsimp only
      split
      · exact ⟨hheld.of_spare fun _ => Nat.zero_le _, hspares⟩
      · rename_i older holder
        obtain ⟨hlost, hlink⟩ := hheld.loseLink holder
        obtain ⟨hend, hrest⟩ := ih hlost older
        exact ⟨hend, (hspares.trans hlink).trans hrest⟩
    · exact ⟨h, .refl n⟩

/-- A link that is given up with its hook leaves every other hook place held. -/
theorem Held.unlink (h : n.Held hook) : (n.unlink hook).Held none ∧ n.Spares (n.unlink hook) := by
  unfold Network.unlink
  split
  · exact ⟨h.of_spare fun _ => Nat.zero_le _, .refl n⟩
  · rename_i key hkey
    obtain ⟨hlost, hlink⟩ := h.loseLink hkey
    obtain ⟨hend, hrest⟩ := hlost.disposeWithin _ key
    exact ⟨hend, hlink.trans hrest⟩

/-- A hook that something refers to gets one link more. -/
theorem Held.link (h : n.Held none) (hook : Option Hook) (href : ∀ key, refers hook key ≤ n.refs key) :
    (n.link hook).Held hook ∧ n.Spares (n.link hook) := by
  unfold Network.link
  split
  · rename_i hnone
    exact ⟨h.of_spare fun key => (refers_eq_zero hnone key).le, .refl n⟩
  · rename_i key hkey
    refine ⟨?_, n.spares_modifySplice key (fun _ => rfl) fun _ => rfl⟩
    have hone : refers hook key = 1 := refers_eq_one hkey
    have hreferred := href key
    obtain ⟨s, hget⟩ := (h.exists_splice (by omega) : ∃ s, n.splices[key]? = some s)
    refine h.modifySplice hget (fun _ => rfl) ?_ (fun other hne => ?_) (h.manned key s hget)
    · rw [hone, refers_none]
    · rw [refers_of_ne hkey hne]
      exact Nat.zero_le _

/-- A further hook place is counted by the splice that it is for. -/
theorem getElem?_link (n : Network) (hook : Option Hook) (key : Nat) :
    (n.link hook).splices[key]? = n.splices[key]?.map fun s => { s with links := s.links + refers hook key } := by
  unfold link
  split
  · rename_i hnone
    simp only [refers_eq_zero hnone, Nat.add_zero]
    exact Option.map_id'.symm
  · rename_i older holder
    rw [getElem?_modifySplice]
    split
    · rename_i heq
      rw [← heq, refers_eq_one holder]
    · rename_i hne
      simp only [refers_of_ne holder hne, Nat.add_zero]
      exact Option.map_id'.symm

theorem registry_link (n : Network) (hook : Option Hook) (key : Nat) : (n.link hook).registry key = n.registry key := by
  rw [registry, getElem?_link, Option.map_map]
  rfl

theorem slot_link (n : Network) (hook : Option Hook) : (n.link hook).slot = n.slot := by
  unfold link
  split <;> rfl

theorem plane_link (n : Network) (hook : Option Hook) : (n.link hook).plane = n.plane := by
  unfold link
  split <;> rfl

theorem previous?_link (n : Network) (hook : Option Hook) (key : Nat) :
    (n.link hook).previous? key = n.previous? key := by
  unfold Network.link
  split
  · rfl
  · exact n.previous?_modifySplice _ key fun _ => rfl

/-- A hook in the slot is held there; the one before is not any more. -/
theorem refs_exchange (n : Network) (hook : Option Hook) (key : Nat) :
    ({ n with slot := hook } : Network).refs key + refers n.slot key = n.refs key + refers hook key := by
  show refers hook key + (n.splices.toList.map fun s => refers s.previous.join key).sum + _ =
    _ + (n.splices.toList.map fun s => refers s.previous.join key).sum + _
  omega

/-- The hook in the slot changes places with one that has a link to spare. -/
theorem Held.exchange (h : n.Held hook) : ({ n with slot := hook } : Network).Held n.slot where
  covered := fun key => (n.refs_exchange hook key).trans_le (h.covered key)
  manned := h.manned

/-- A hook that something refers to can be put into the slot. -/
theorem Held.putBack (h : n.Held none) (hook : Option Hook) (href : ∀ key, refers hook key ≤ n.refs key) :
    ((n.link hook).putHook hook).Held none ∧ n.Keeps ((n.link hook).putHook hook) ∧
      ((n.link hook).putHook hook).slot = hook := by
  -- it gets its link before the hook that is in the slot loses its own
  obtain ⟨hheld, hlink⟩ := h.link hook href
  let n₁ : Network := { n.link hook with slot := hook }
  obtain ⟨hend, hunlink⟩ : (n₁.unlink (n.link hook).slot).Held none ∧ n₁.Spares (n₁.unlink (n.link hook).slot) :=
    hheld.exchange.unlink
  have hexchange : n.Keeps n₁ := by
    refine ⟨hlink.size, hlink.active, fun key hpos => ?_, fun key _ => n.previous?_link hook key⟩
    by_contra hzero
    have hrefs : n₁.refs key + refers (n.link hook).slot key = (n.link hook).refs key + refers hook key :=
      (n.link hook).refs_exchange hook key
    have hlinked : ¬ 0 < (n.link hook).refs key := mt (hlink.refs key) hzero
    have := href key
    omega
  exact ⟨hend, hexchange.trans hunlink.toKeeps, hunlink.slot⟩

/-! ## Splices that are started and torn down -/

/-- A splice that is not in the slot has nothing to take out. -/
theorem tearDown_of_inactive (hs : n.splices[key]? = some s) (hdone : s.active = false) : n.tearDown key = n := by
  unfold tearDown
  rw [hs]
  dsimp only
  rw [hdone]
  exact if_neg Bool.false_ne_true

/-- What is active or referred to later was so before, if it was there, and remembers what it did. -/
structure Endures (n n' : Network) : Prop where
  size : n.splices.size ≤ n'.splices.size
  active : ∀ key < n.splices.size, n'.IsActive key → n.IsActive key
  refs : ∀ key < n.splices.size, 0 < n'.refs key → 0 < n.refs key
  kept : ∀ key < n.splices.size, 0 < n'.refs key ∨ n'.IsActive key → n'.previous? key = n.previous? key

theorem Endures.refl (n : Network) : n.Endures n :=
  ⟨Nat.le_refl _, fun _ _ h => h, fun _ _ h => h, fun _ _ _ => rfl⟩

/-- What endures on the way endures in the end. -/
theorem Endures.trans (h : n.Endures n') (h' : n'.Endures n'') : n.Endures n'' where
  size := h.size.trans h'.size
  active := fun key hkey hactive => h.active key hkey (h'.active key (hkey.trans_le h.size) hactive)
  refs := fun key hkey hpos => h.refs key hkey (h'.refs key (hkey.trans_le h.size) hpos)
  kept := fun key hkey hin =>
    have hkey' := hkey.trans_le h.size
    (h'.kept key hkey' hin).trans (h.kept key hkey (hin.imp (h'.refs key hkey') (h'.active key hkey')))

/-- What is kept endures. -/
theorem Keeps.endures (h : n.Keeps n') : n.Endures n' where
  size := h.size.ge
  active := fun key _ => (h.active key).1
  refs := fun key _ => h.refs key
  kept := fun key _ => h.kept key

/-- A way that something still refers to leads on as it did. -/
theorem Leads.endures {base : Option HookSet} {keys : List Nat} (h : n.Leads base hook keys) (he : n.Endures n')
    (hkeys : ∀ key ∈ keys, key < n.splices.size) (href : ∀ key, refers hook key ≤ n'.refs key) :
    n'.Leads base hook keys := by
  -- along the way: what is referred to remembers the same, and so refers to the next
  induction h with
  | base => exact .base
  | @splice key keys older rest ih =>
    rw [List.forall_mem_cons] at hkeys
    have hpos : 0 < n'.refs key := by
      have hone : refers (some (.splice key)) key = 1 := refers_eq_one rfl
      have := href key
      omega
    have hsame := he.kept key hkeys.1 (.inl hpos)
    refine .splice older ?_
    rw [hsame]
    refine ih hkeys.2 fun other => ?_
    rw [← hsame]
    exact n'.refers_previous?_le key other

end Network

end Patchbay
