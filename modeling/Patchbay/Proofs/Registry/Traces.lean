import Patchbay.Proofs.Registry.Marks

/-!
# `Proofs.Registry.Traces` — what a registry leaves in the host's interface table

A registry writes two fields of an interface. Plugging raises an MTU that is too small for an Ethernet frame, and that
stays so. Plugging also marks an interface that was free, and unplugging takes the mark away again; an interface that
has a mark or a node of its own keeps it. So the table can be told from the one at first, from the interfaces that are
plugged, and from those that ever were.

## Contents
* `Table.modifyFirst_eq_map`, `Table.modify_eq_map` — an interface changed by its index;
* `Interface.traced` — an interface with the traces of plugs; `Interface.hooked_traced`, `Interface.unmarked_traced`;
* `Registry.letIn`, `Registry.everLetIn` — which interfaces an event plugs, and events in order;
* `Registry.Traced` — the table shows the traces of the plugs that there are and were; `Traced.step`, `Traced.run`;
* `Registry.run_traces` — whatever is plugged, refused and unplugged.
-/

namespace Patchbay

/-! ## An interface by its index -/

namespace Table

variable {f : Interface → Interface} {picks : Interface → Bool} {is : List Interface} {i : Interface} {index : Nat}

theorem map_of_forall_index_ne (h : ∀ j ∈ is, j.index ≠ index) :
    (is.map fun j => if j.index = index then f j else j) = is := by
  have hsame : (is.map fun j => if j.index = index then f j else j) = is.map id :=
    List.map_congr_left fun j hj => if_neg (h j hj)
  rw [hsame, List.map_id]

/-- Where indices are distinct, the one that is picked changes, and it is known by its index. -/
theorem modifyFirst_eq_map (hd : (is.map Interface.index).Nodup) (hfind : is.find? picks = some i) :
    modifyFirst f picks is = is.map fun j => if j.index = i.index then f j else j := by
  induction is with
  | nil => cases hfind
  | cons first rest ih =>
    rw [List.map_cons, List.nodup_cons] at hd
    rw [List.find?_cons] at hfind
    rw [modifyFirst, List.map_cons]
    by_cases hpicks : picks first = true
    · rw [hpicks] at hfind
      obtain rfl := Option.some.inj hfind
      have hrest : ∀ j ∈ rest, j.index ≠ first.index := fun j hj heq => hd.1 (heq ▸ List.mem_map_of_mem hj)
      rw [if_pos hpicks, if_pos rfl, map_of_forall_index_ne hrest]
    · rw [Bool.eq_false_iff.2 hpicks] at hfind
      have hne : first.index ≠ i.index := fun heq =>
        hd.1 (heq ▸ List.mem_map_of_mem (List.mem_of_find?_eq_some hfind))
      rw [if_neg hpicks, if_neg hne, ih hd.2 hfind]

/-- An interface that has gone from the host does not change. -/
theorem modify_eq_map {t : Table} (hd : t.Distinct) (index : Nat) :
    (t.modify index f).interfaces = t.interfaces.map fun j => if j.index = index then f j else j := by
  cases hfind : t.interfaces.find? (·.index = index) with
  | some i =>
    have hindex : i.index = index := by simpa using List.find?_some hfind
    subst hindex
    exact modifyFirst_eq_map hd hfind
  | none =>
    have hgone : ∀ j ∈ t.interfaces, j.index ≠ index := fun j hj => by simpa using List.find?_eq_none.1 hfind j hj
    rw [map_of_forall_index_ne hgone, modify, modifyFirst_of_none hfind]

end Table

/-! ## Traces of plugs -/

namespace Interface

/-- An interface with the traces of plugs: of those that are bound to an index, and of those that ever were. -/
def traced (bound ever : List Nat) (i : Interface) : Interface :=
  { i with
    mtu := if i.index ∈ ever then max i.mtu 1514 else i.mtu
    attachment := if i.index ∈ bound ∧ i.attachment = .none then .synthetic else i.attachment }

variable {bound bound' ever : List Nat} {index : Nat} {i : Interface}

theorem attachment_traced_of_free (hfree : i.index ∉ bound) : (i.traced bound ever).attachment = i.attachment :=
  if_neg fun h => hfree h.1

/-- Plugging an interface that is not plugged leaves the traces of one plug more. -/
theorem hooked_traced (hfree : i.index ∉ bound) :
    Registry.hooked (i.traced bound ever) = i.traced (bound ++ [i.index]) (ever ++ [i.index]) := by
  have hbound : i.index ∈ bound ++ [i.index] := List.mem_append_right _ List.mem_cons_self
  have hever : i.index ∈ ever ++ [i.index] := List.mem_append_right _ List.mem_cons_self
  have hmtu : max (i.traced bound ever).mtu Registry.leastMtu = max i.mtu 1514 := by
    unfold traced Registry.leastMtu
    dsimp only
    split
    · exact Nat.max_eq_left (Nat.le_max_right _ _)
    · rfl
  unfold Registry.hooked
  rw [hmtu, attachment_traced_of_free hfree]
  simp only [traced, if_pos hever, hbound, true_and]

/-- Plugging another one leaves no traces. -/
theorem traced_append_of_ne (hne : i.index ≠ index) :
    i.traced (bound ++ [index]) (ever ++ [index]) = i.traced bound ever := by
  have hmem (indices : List Nat) : i.index ∈ indices ++ [index] ↔ i.index ∈ indices := by
    rw [List.mem_append, List.mem_singleton, or_iff_left hne]
  simp only [traced, hmem]

/-- The mark of a plug goes with it. -/
theorem unmarked_traced (hin : i.index ∈ bound) (hout : i.index ∉ bound') (hfree : i.attachment = .none) :
    Registry.unmarked (i.traced bound ever) = i.traced bound' ever := by
  have hmark : (i.traced bound ever).attachment = .synthetic := if_pos ⟨hin, hfree⟩
  unfold Registry.unmarked
  rw [if_pos hmark, traced, traced, if_neg fun h : i.index ∈ bound' ∧ _ => hout h.1, hfree]

/-- Other plugs make no difference, nor does any to an interface that had an attachment of its own. -/
theorem traced_congr (h : i.attachment = .none → (i.index ∈ bound ↔ i.index ∈ bound')) :
    i.traced bound ever = i.traced bound' ever := by
  have hiff : i.index ∈ bound ∧ i.attachment = .none ↔ i.index ∈ bound' ∧ i.attachment = .none :=
    and_congr_left h
  simp only [traced, hiff]

end Interface

namespace Registry

variable {r : Registry} {p : Backplane} {original : List Interface} {ever : List Nat}

/-- The index of the interface that an event plugs, if it does. -/
def letIn (r : Registry) (p : Backplane) : Event → List Nat
  | .plug budget name id virtualMac =>
    match (r.plug p budget name id virtualMac).1, p.table.find? name with
    | .ok _, some i => [i.index]
    | _, _ => []
  | .unplug _ | .unplugEverything | .host _ => []

/-- The indices of the interfaces that events in order plug. -/
def everLetIn (r : Registry) (p : Backplane) : List Event → List Nat
  | [] => []
  | e :: rest => letIn r p e ++ everLetIn (step r p e).1 (step r p e).2 rest

/-- The indices of the interfaces that are plugged. -/
def bound (r : Registry) : List Nat := r.plugs.map Plug.index

theorem mem_bound_iff {index : Nat} : index ∈ r.bound ↔ ∃ plug ∈ r.plugs, plug.index = index :=
  List.mem_map

/-- Unplugging an id frees the interface of its plug, and no other one. -/
theorem mem_bound_unplug (hr : r.Sound) {id index : Nat} {plug : Plug} (hfind : r.byId? id = some plug) :
    index ∈ (r.unplug p id).2.1.bound ↔ index ∈ r.bound ∧ index ≠ plug.index := by
  obtain ⟨hplug, hid⟩ := hr.byId?_iff.1 hfind
  rw [mem_bound_iff, mem_bound_iff, plugs_unplug hr]
  constructor
  · rintro ⟨other, hother, rfl⟩
    obtain ⟨hin, hne⟩ := List.mem_filter.1 hother
    refine ⟨⟨other, hin, rfl⟩, fun hsame => of_decide_eq_true hne ?_⟩
    rw [List.inj_on_of_nodup_map hr.indices hin hplug hsame, hid]
  · rintro ⟨⟨other, hin, rfl⟩, hne⟩
    refine ⟨other, List.mem_filter.2 ⟨hin, decide_eq_true fun hsame => hne ?_⟩, rfl⟩
    rw [List.inj_on_of_nodup_map hr.ids hin hplug (hsame.trans hid.symm)]

/-- The table shows the traces of the plugs that there are and of those that there ever were, and a plug knows whether
the interface was free. -/
structure Traced (original : List Interface) (ever : List Nat) (r : Registry) (t : Table) : Prop where
  interfaces : t.interfaces = original.map (Interface.traced r.bound ever)
  marked : ∀ plug ∈ r.plugs, ∀ i ∈ original, i.index = plug.index → (plug.marked = true ↔ i.attachment = .none)

section Distinct

variable (hd : (original.map Interface.index).Nodup)

theorem Traced.start {t : Table} : Traced t.interfaces [] {} t := by
  refine ⟨?_, fun _ h => absurd h List.not_mem_nil⟩
  have hsame : t.interfaces.map (Interface.traced [] []) = t.interfaces.map id :=
    List.map_congr_left fun i _ => by simp [Interface.traced]
  exact (hsame.trans (List.map_id _)).symm

include hd

theorem Traced.distinct {t : Table} (h : Traced original ever r t) : t.Distinct := by
  rw [Table.Distinct, Table.indices, h.interfaces, List.map_map]
  exact hd

theorem Traced.plug (h : Traced original ever r p.table) (budget : Nat) (name : String) (id : Nat)
    (virtualMac : Mac) :
    Traced original (ever ++ r.letIn p (.plug budget name id virtualMac)) (r.plug p budget name id virtualMac).2.1
      (r.plug p budget name id virtualMac).2.2.table := by
  dsimp only [letIn]
  rcases r.plug_cases p budget name id virtualMac with ⟨e, m, hr⟩ | ⟨i, realMac, record, m, hfind, -, htaken, -, hr⟩
  · rw [hr, List.append_nil]
    exact h
  · -- the interface was free, or the plug would have been refused
    have hfree : i.index ∉ r.bound := by
      intro hin
      obtain ⟨other, hother, hsame⟩ := mem_bound_iff.1 hin
      rw [isTaken_iff.2 ⟨other, hother, .inr hsame⟩] at htaken
      cases htaken
    rw [hr, hfind]
    show Traced original (ever ++ [i.index]) _ _
    constructor
    · have hafter : bound ⟨r.plugs ++ [fresh p i realMac virtualMac id record], r.count + 1⟩ = r.bound ++ [i.index] :=
        List.map_append
      show Table.modifyFirst hooked _ p.table.interfaces = _
      rw [hafter, Table.modifyFirst_eq_map (h.distinct hd) hfind, h.interfaces, List.map_map]
      refine List.map_congr_left fun j _ => ?_
      show (if j.index = i.index then hooked (j.traced r.bound ever) else j.traced r.bound ever) = _
      by_cases hj : j.index = i.index
      · rw [if_pos hj, ← hj, Interface.hooked_traced (hj ▸ hfree)]
      · rw [if_neg hj, Interface.traced_append_of_ne hj]
    · intro plug hplug j hj hindex
      rcases List.mem_append.1 hplug with hold | hnew
      · exact h.marked plug hold j hj hindex
      · -- the interface that is plugged is the original one but for traces of plugs that are gone
        obtain rfl := List.mem_singleton.1 hnew
        have hi := List.mem_of_find?_eq_some hfind
        have hjin : j.traced r.bound ever ∈ p.table.interfaces := by
          rw [h.interfaces]
          exact List.mem_map_of_mem hj
        have hsame : j.traced r.bound ever = i := List.inj_on_of_nodup_map (h.distinct hd) hjin hi hindex
        have hjfree : j.index ∉ r.bound := by
          rw [show j.index = i.index from hindex]
          exact hfree
        show decide (i.attachment = .none) = true ↔ _
        rw [decide_eq_true_iff, ← hsame, Interface.attachment_traced_of_free hjfree]

theorem Traced.unplug (h : Traced original ever r p.table) (hr : r.Sound) (id : Nat) :
    Traced original ever (r.unplug p id).2.1 (r.unplug p id).2.2.table := by
  rcases r.unplug_cases p id with ⟨-, hnone⟩ | ⟨plug, hfind, htable⟩
  · rw [hnone]
    exact h
  · have hplug := (hr.byId?_iff.1 hfind).1
    constructor
    · by_cases hmarked : plug.marked = true
      · rw [htable, if_pos hmarked, Table.modify_eq_map (h.distinct hd), h.interfaces, List.map_map]
        refine List.map_congr_left fun j hj => ?_
        show (if j.index = plug.index then unmarked (j.traced r.bound ever) else j.traced r.bound ever) = _
        by_cases hindex : j.index = plug.index
        · have hin : j.index ∈ r.bound := mem_bound_iff.2 ⟨plug, hplug, hindex.symm⟩
          have hout : j.index ∉ (r.unplug p id).2.1.bound := fun hin => ((mem_bound_unplug hr hfind).1 hin).2 hindex
          rw [if_pos hindex, Interface.unmarked_traced hin hout ((h.marked plug hplug j hj hindex).1 hmarked)]
        · rw [if_neg hindex]
          exact Interface.traced_congr fun _ => (mem_bound_unplug hr hfind).trans (and_iff_left hindex) |>.symm
      · rw [htable, if_neg hmarked, h.interfaces]
        refine List.map_congr_left fun j hj => Interface.traced_congr fun hnone => ?_
        have hindex : j.index ≠ plug.index := fun hindex => hmarked ((h.marked plug hplug j hj hindex).2 hnone)
        exact ((mem_bound_unplug hr hfind).trans (and_iff_left hindex)).symm
    · intro other hother
      rw [plugs_unplug hr] at hother
      exact h.marked other (List.mem_of_mem_filter hother)

theorem Traced.unplugEach (h : Traced original ever r p.table) (hr : r.Sound) (ids : List Nat) :
    Traced original ever (r.unplugEach p ids).2.1 (r.unplugEach p ids).2.2.table := by
  induction ids generalizing r p with
  | nil => exact h
  | cons id rest ih => exact ih (h.unplug hd hr id) (hr.unplug p id)

/-- An event leaves the traces that it should, if it is not the host that writes the table. -/
theorem Traced.step (h : Traced original ever r p.table) (hr : r.Sound) (e : Event)
    (halone : ∀ change, e = .host change → (change p).table = p.table) :
    Traced original (ever ++ r.letIn p e) (r.step p e).1 (r.step p e).2.table := by
  cases e with
  | plug budget name id virtualMac => exact h.plug hd budget name id virtualMac
  | unplug id =>
    rw [letIn, List.append_nil]
    exact h.unplug hd hr id
  | unplugEverything =>
    rw [letIn, List.append_nil]
    exact h.unplugEach hd hr r.ids
  | host change =>
    rw [letIn, List.append_nil]
    show Traced original ever r (change p).table
    rw [halone change rfl]
    exact h

theorem Traced.run (h : Traced original ever r p.table) (hr : r.Sound) (events : List Event)
    (halone : ∀ change, .host change ∈ events → ∀ q, (change q).table = q.table) :
    Traced original (ever ++ r.everLetIn p events) (r.run p events).1 (r.run p events).2.table := by
  induction events generalizing r p ever with
  | nil =>
    rw [everLetIn, List.append_nil]
    exact h
  | cons e rest ih =>
    have hstep := h.step hd hr e fun change he => halone change (he ▸ List.mem_cons_self) p
    rw [everLetIn, ← List.append_assoc]
    exact ih hstep (hr.step p e) fun change hin => halone change (List.mem_cons_of_mem e hin)

end Distinct

/-- **A registry leaves its traces in the host's table, and nothing else.** Interfaces have distinct indices, and nobody
but the registry writes them, while it plugs, is refused and unplugs in any order. Then the table has the same
interfaces in the same order at any moment. The MTU of those that were ever plugged is at least a whole Ethernet frame,
and of the others the original one; those that are plugged and were free at first are marked, and all others are
attached to what they were. -/
theorem run_traces (p : Backplane) (hd : p.table.Distinct) (events : List Event)
    (halone : ∀ change, .host change ∈ events → ∀ q, (change q).table = q.table) :
    (run {} p events).2.table.interfaces = p.table.interfaces.map fun i =>
      { i with
        mtu := if i.index ∈ everLetIn {} p events then max i.mtu 1514 else i.mtu
        attachment :=
          if i.index ∈ (run {} p events).1.plugs.map Plug.index ∧ i.attachment = .none then .synthetic
          else i.attachment } := by
  have htraced := Traced.start.run hd Sound.empty events halone
  rw [List.nil_append] at htraced
  exact htraced.interfaces

/-- Of two interfaces of one name the first is plugged, unplugged and plugged again; one with a node of its own and one
that was marked already are plugged and unplugged, and a second plug of the former is refused. -/
theorem run_traces_three :
    let mac (n : UInt8) : Mac := ⟨[2, 0, 0, 0, 0, n], rfl⟩
    let eth (index mtu : Nat) (attachment : Attachment) (name : String) : Interface :=
      { index := index, name := name, mtu := mtu, flags := 1, addresses := [none, some (mac 1)]
        attachment := attachment }
    let p : Backplane :=
      { memory := { budgets := #[Budget.new 0 1000 false] }
        table := ⟨[eth 4 1500 .none "ethernet-with-a-name-1", eth 2 576 .none "ethernet-with-a-name-2",
          eth 7 9000 .node "en0", eth 1 1400 .synthetic "tap0"]⟩ }
    let events : List Event :=
      [.plug 0 "ethernet-with-a-name-2" 3 (mac 2), .plug 0 "en0" 5 (mac 2), .plug 0 "tap0" 6 (mac 2),
        .plug 0 "en0" 9 (mac 2), .host fun q => { q with memory := { q.memory with pool := {} } }, .unplug 3,
        .unplug 3, .plug 0 "ethernet-with-a-name-1" 8 (mac 2), .unplug 5, .unplug 6]
    p.table.Distinct ∧ (∀ change, .host change ∈ events → ∀ q, (change q).table = q.table) ∧
      (run {} p events).2.table.interfaces =
        [eth 4 1514 .synthetic "ethernet-with-a-name-1", eth 2 576 .none "ethernet-with-a-name-2",
          eth 7 9000 .node "en0", eth 1 1514 .synthetic "tap0"] := by
  intro mac eth p events
  have hd : p.table.Distinct := by decide +kernel
  have halone : ∀ change, .host change ∈ events → ∀ q, (change q).table = q.table := by
    intro change hin q
    simp only [events, List.mem_cons, Event.host.injEq, reduceCtorEq, false_or, List.not_mem_nil, or_false] at hin
    rw [hin]
  refine ⟨hd, halone, ?_⟩
  rw [run_traces p hd events halone]
  decide +kernel

end Registry

end Patchbay
