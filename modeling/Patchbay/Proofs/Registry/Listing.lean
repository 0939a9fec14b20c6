import Mathlib.Data.List.Nodup
import Patchbay.Proofs.Inbox.Granting
import Patchbay.Proofs.Registry.Plugging
import Patchbay.Proofs.Registry.Residue
import Patchbay.Proofs.Slot.Beside

/-!
# `Proofs.Registry.Listing` — what is listed can be plugged

A consumer is shown the names of the interfaces that have an Ethernet address, and it plugs by name. The list goes over
the table interface by interface, plugging takes the first one whose name agrees on the bytes that count, and a plug is
then looked up by id, by index and by name. The three agree as long as names differ where they count and the table
keeps the interfaces that it has: each plug then carries the index and the name of an interface of the table, so that
no other plug has the name of the new one.

## Contents
* `Table.members`, `Table.WellNamed` — who is in a table, and names that tell interfaces apart;
* `Table.mem_etherNames`, `Table.WellNamed.find?` — the list, and the way back from a name to its interface;
* `Registry.plug_free`, `Registry.Faithful` — plugs that carry the index and the name of an interface of the table;
* `Registry.Faithful.byName?_append` — such plugs leave a new name to the new plug;
* `Scene.faithful_perform`, `Scene.faithful_run` — acts that keep the members of the table keep its plugs faithful;
* `Scene.run_pluggable` — every listed name can be plugged, and no other.
-/

namespace Patchbay

/-! ## Who is in a table -/

namespace Table

/-- The index and the name of each interface. -/
def members (t : Table) : List (Nat × String) :=
  t.interfaces.map fun i => (i.index, i.name)

/-- Names differ on the bytes that count. -/
def WellNamed (t : Table) : Prop :=
  (t.interfaces.map fun i => nameBytes i.name).Nodup

instance (t : Table) : Decidable t.WellNamed := inferInstanceAs (Decidable (List.Nodup _))

variable {t t' : Table} {i j : Interface} {name : String}

theorem mem_members {index : Nat} :
    (index, name) ∈ t.members ↔ ∃ i ∈ t.interfaces, i.index = index ∧ i.name = name := by
  simp [members]

/-- Names are among what makes up the members, whatever their order. -/
theorem WellNamed.of_perm (h : t.WellNamed) (hperm : t'.members.Perm t.members) : t'.WellNamed := by
  have hnames (t : Table) : (t.interfaces.map fun i => nameBytes i.name) = t.members.map fun m => nameBytes m.2 := by
    rw [members, List.map_map]
    rfl
  rw [WellNamed, hnames] at h ⊢
  exact (hperm.map _).nodup_iff.2 h

theorem WellNamed.eq (h : t.WellNamed) (hi : i ∈ t.interfaces) (hj : j ∈ t.interfaces)
    (hname : nameBytes i.name = nameBytes j.name) : i = j :=
  List.inj_on_of_nodup_map h hi hj hname

/-- A name that agrees with that of an interface where it counts leads to this interface. -/
theorem WellNamed.find? (h : t.WellNamed) (hi : i ∈ t.interfaces) (hname : nameBytes i.name = nameBytes name) :
    t.find? name = some i := by
  cases hfind : t.find? name with
  | none => exact absurd hname (find?_eq_none_iff.1 hfind i hi)
  | some j =>
    obtain ⟨front, behind, hfirst⟩ := find?_eq_some_iff.1 hfind
    have hj : j ∈ t.interfaces := List.mem_of_find?_eq_some hfind
    rw [h.eq hj hi (hfirst.named.trans hname.symm)]

theorem mem_etherNames : name ∈ t.etherNames ↔ ∃ i ∈ t.interfaces, i.mac?.isSome ∧ i.name = name := by
  simp [etherNames, and_assoc]

end Table

/-! ## Plugging what is free -/

theorem find?_concat {α : Type} {picks : α → Bool} {l : List α} {a : α} (hothers : l.find? picks = none)
    (ha : picks a = true) : (l ++ [a]).find? picks = some a := by
  rw [List.find?_append, hothers, Option.none_or, List.find?_singleton, if_pos ha]

namespace Registry

variable {r : Registry} {p : Backplane} {t t' : Table} {plug : Plug} {name : String} {id : Nat}

/-- An interface that is free is plugged if its record is paid for. -/
theorem plug_free {budget : Nat} (virtualMac : Mac) {realMac : Mac} {i : Interface}
    (hfind : p.table.find? name = some i) (hmac : i.mac? = some realMac)
    (hid : r.byId? id = none) (hindex : r.byIndex? i.index = none)
    (hgrants : p.memory.Grants budget recordNote recordSize) :
    ∃ record m, r.plug p budget name id virtualMac =
      (.ok i.isUp, ⟨r.plugs ++ [fresh p i realMac virtualMac id record], r.count + 1⟩,
        { memory := m, table := p.table.modifyNamed name hooked, lines := p.lines.push {} }) := by
  have hfree : r.isTaken id i.index = false := by
    refine isTaken_eq_false_iff.2 fun other hother => ⟨?_, ?_⟩
    · simpa using List.find?_eq_none.1 hid other hother
    · simpa using List.find?_eq_none.1 hindex other hother
  obtain ⟨record, m, halloc, -⟩ := hgrants.alloc
  unfold plug
  rw [hfind]
  dsimp only
  rw [hmac]
  dsimp only
  rw [hfree, if_neg Bool.false_ne_true, halloc]
  exact ⟨record, m, rfl⟩

/-- A name that no Ethernet interface has is not plugged. -/
theorem plug_unlisted (r : Registry) (budget : Nat) (virtualMac : Mac)
    (h : ∀ listed ∈ p.table.etherNames, nameBytes listed ≠ nameBytes name) :
    (r.plug p budget name id virtualMac).1 = .error .notFound := by
  unfold plug
  cases hfind : p.table.find? name with
  | none => rfl
  | some i =>
    obtain ⟨front, behind, hfirst⟩ := Table.find?_eq_some_iff.1 hfind
    cases hmac : i.mac? with
    | none => dsimp only; rw [hmac]
    | some realMac =>
      refine absurd hfirst.named (h i.name (Table.mem_etherNames.2 ⟨i, List.mem_of_find?_eq_some hfind, ?_, rfl⟩))
      rw [hmac]
      rfl

/-! ## Plugs that carry the names of the table -/

/-- Each plug carries the index and the name of an interface of the table. -/
def Faithful (r : Registry) (t : Table) : Prop :=
  ∀ plug ∈ r.plugs, (plug.index, plug.name) ∈ t.members

theorem Faithful.of_perm (h : r.Faithful t) (hperm : t'.members.Perm t.members) : r.Faithful t' :=
  fun plug hplug => hperm.mem_iff.2 (h plug hplug)

/-- An interface that is not plugged leaves its name to the plug that comes. -/
theorem Faithful.byName?_append (h : r.Faithful t) (hnamed : t.WellNamed) {i : Interface} (hi : i ∈ t.interfaces)
    (hindex : r.byIndex? i.index = none) (hname : plug.name = i.name) (count : Nat) :
    byName? ⟨r.plugs ++ [plug], count⟩ i.name = some plug := by
  have hothers : ∀ other ∈ r.plugs, sameName other.name i.name ≠ true := by
    intro other hother hsame
    obtain ⟨j, hj, hjindex, hjname⟩ := Table.mem_members.1 (h other hother)
    have heq : j = i := hnamed.eq hj hi (by rw [hjname]; exact Table.sameName_iff.1 hsame)
    have hne : other.index ≠ i.index := by simpa using List.find?_eq_none.1 hindex other hother
    exact hne (by rw [← hjindex, heq])
  have hself : sameName plug.name i.name = true := by
    rw [hname]
    exact Table.sameName_iff.2 rfl
  exact find?_concat (List.find?_eq_none.2 hothers) hself

end Registry

/-! ## Acts that keep the members of the table -/

/-- A plug that is let in carries what the table has at that moment. -/
theorem Network.faithful_plug {n : Network} {key : Nat} (h : (n.registry key).Faithful n.plane.table) (other : Nat)
    (name : String) (id : Nat) (mac : Mac) :
    ((n.plug other name id mac).2.registry key).Faithful n.plane.table := by
  intro plug hplug
  rcases mem_onRegistry hplug with ⟨rfl, hout⟩ | hold
  · rcases (n.registry other).plug_cases n.plane (n.budgetOf other) name id mac with
      ⟨_, m, heq⟩ | ⟨i, realMac, record, m, hfind, -, -, -, heq⟩
    · rw [heq] at hout
      exact h plug hout
    · rw [heq, List.mem_append, List.mem_singleton] at hout
      rcases hout with hold | rfl
      · exact h plug hold
      · exact Table.mem_members.2 ⟨i, List.mem_of_find?_eq_some hfind, rfl, rfl⟩
  · exact h plug hold

namespace Scene

variable {s : Scene} {key : Nat}

/-- Acts other than plugging leave no plug that was not there. -/
theorem faithful_perform (h : (s.network.registry key).Faithful s.network.plane.table) (act : Act) :
    ((s.perform act).network.registry key).Faithful s.network.plane.table := by
  by_cases hact : ∃ other name id mac, act = .splice (.plug other name id mac)
  · obtain ⟨other, name, id, mac, rfl⟩ := hact
    show ((if other < _ then _ else _ : Scene).network.registry key).Faithful _
    split
    · exact Network.faithful_plug h other name id mac
    · exact h
  · intro plug hplug
    refine h plug (s.dwindles_perform (fun other name id mac heq => ?_) key hplug)
    exact hact ⟨other, name, id, mac, heq⟩

theorem faithful_step (h : (s.network.registry key).Faithful s.network.plane.table) (t : Turn)
    (hkept : (s.step t).network.plane.table.members.Perm s.network.plane.table.members) :
    ((s.step t).network.registry key).Faithful (s.step t).network.plane.table := by
  -- neither the thread nor the system allocator is any part of a registry
  let n := s.network.setMemory { s.network.memory with heap := t.heap, lane := t.lane }
  have hn : (({ s with network := n } : Scene).network.registry key).Faithful n.plane.table := h
  exact Registry.Faithful.of_perm (faithful_perform hn t.act) hkept

/-- Over any run, plugs stay faithful and names tell interfaces apart, as long as the table keeps its members. -/
theorem faithful_run (h : (s.network.registry key).Faithful s.network.plane.table) (turns : List Turn)
    (hkept : ∀ k ≤ turns.length,
      (s.run (turns.take k)).network.plane.table.members.Perm s.network.plane.table.members) :
    ((s.run turns).network.registry key).Faithful (s.run turns).network.plane.table := by
  induction turns generalizing s with
  | nil => exact h
  | cons t rest ih =>
    have hfirst : (s.step t).network.plane.table.members.Perm s.network.plane.table.members :=
      hkept 1 (Nat.succ_le_succ (Nat.zero_le _))
    refine ih (faithful_step h t hfirst) fun k hk => ?_
    exact (hkept (k + 1) (Nat.succ_le_succ hk)).trans hfirst.symm

theorem size_run (s : Scene) (turns : List Turn) : s.network.splices.size ≤ (s.run turns).network.splices.size := by
  induction turns generalizing s with
  | nil => exact Nat.le_refl _
  | cons t rest ih =>
    let n := s.network.setMemory { s.network.memory with heap := t.heap, lane := t.lane }
    exact Nat.le_trans (size_perform { s with network := n } t.act) (ih (s.step t))

/-- **Every listed interface can be plugged, and no other.** A splice has nothing plugged, as when it starts, and the
names of the host's interfaces differ on the bytes that count. From then on anybody does anything, plugging and
unplugging included, as long as the table keeps its members and their names. Then each name on the list belongs to one
interface. If neither this interface nor an id is plugged in the splice, and the budget grants the record, plugging the
name under the id succeeds and binds this interface, and id, name and index of it all lead to the new plug. A name that
agrees with none on the list cannot be plugged. -/
theorem run_pluggable (s : Scene) {key : Nat} (hkey : key < s.network.splices.size)
    (hnone : (s.network.registry key).plugs = []) (hnamed : s.network.plane.table.WellNamed) (turns : List Turn)
    (hkept : ∀ k ≤ turns.length,
      (s.run (turns.take k)).network.plane.table.members.Perm s.network.plane.table.members) :
    let n := (s.run turns).network
    (∀ name ∈ n.plane.table.etherNames, ∃ i ∈ n.plane.table.interfaces, ∃ realMac,
      i.name = name ∧ i.mac? = some realMac ∧
      (∀ j ∈ n.plane.table.interfaces, nameBytes j.name = nameBytes name → j = i) ∧
      ∀ id mac, (n.registry key).byId? id = none → (n.registry key).byIndex? i.index = none →
        n.memory.Grants (n.budgetOf key) Registry.recordNote Registry.recordSize →
        (n.plug key name id mac).1 = .ok i.isUp ∧
        let r := (n.plug key name id mac).2.registry key
        ∃ plug, plug.id = id ∧ plug.index = i.index ∧ plug.name = name ∧ plug.realMac = realMac ∧
          plug.virtualMac = mac ∧ r.byId? id = some plug ∧ r.byName? name = some plug ∧
          r.byIndex? i.index = some plug) ∧
    ∀ name id mac, (∀ listed ∈ n.plane.table.etherNames, nameBytes listed ≠ nameBytes name) →
      (n.plug key name id mac).1 = .error .notFound := by
  intro n
  -- the names of the table are those of the beginning, so the names that plugs have are those that are listed
  have hempty : (s.network.registry key).Faithful s.network.plane.table := by
    intro plug hplug
    rw [hnone] at hplug
    cases hplug
  have hfaithful : (n.registry key).Faithful n.plane.table := faithful_run hempty turns hkept
  have hlast : n.plane.table.members.Perm s.network.plane.table.members := by
    have := hkept turns.length (Nat.le_refl _)
    rwa [List.take_length] at this
  have hdistinct : n.plane.table.WellNamed := hnamed.of_perm hlast
  have hsize : key < n.splices.size := Nat.lt_of_lt_of_le hkey (s.size_run turns)
  have hthere : n.splices[key]? = some n.splices[key] := Array.getElem?_eq_getElem hsize
  refine ⟨fun name hlisted => ?_, fun name id mac hunlisted => Registry.plug_unlisted _ _ mac hunlisted⟩
  obtain ⟨i, hi, hether, rfl⟩ := Table.mem_etherNames.1 hlisted
  obtain ⟨realMac, hmac⟩ := Option.isSome_iff_exists.1 hether
  refine ⟨i, hi, realMac, rfl, hmac, fun j hj hname => hdistinct.eq hj hi hname, fun id mac hid hindex hgrants => ?_⟩
  obtain ⟨record, m, hplugged⟩ := Registry.plug_free mac (hdistinct.find? hi rfl) hmac hid hindex hgrants
  have hup : (n.plug key i.name id mac).1 = .ok i.isUp := congrArg Prod.fst hplugged
  refine ⟨hup, Registry.fresh n.plane i realMac mac id record, rfl, rfl, rfl, rfl, rfl, ?_⟩
  -- the new plug comes last, and none before it has its id, its interface or its name
  have hregistry : (n.plug key i.name id mac).2.registry key =
      ⟨(n.registry key).plugs ++ [Registry.fresh n.plane i realMac mac id record], (n.registry key).count + 1⟩ :=
    (Network.registry_eq (Network.registry_onRegistry_self hthere _).1).trans (congrArg (fun r => r.2.1) hplugged)
  rw [hregistry]
  exact ⟨find?_concat hid (decide_eq_true rfl), hfaithful.byName?_append hdistinct hi hindex rfl _,
    find?_concat hindex (decide_eq_true rfl)⟩

/-- Two interfaces with long names and a loopback; a splice is started, one interface is plugged and unplugged, an MTU
changes. Then the other interface can still be plugged under its listed name, and the loopback cannot. -/
theorem run_pluggable_long :
    let own : Mac := ⟨[2, 0, 0, 0, 0, 1], rfl⟩
    let s := (start none).run
      [{ act := .host (.addInterface "uplink-of-the-house" (some ⟨[2, 0, 0, 0, 0, 8], rfl⟩) 1500 1) },
        { act := .host (.addInterface "lo0" none 16384 9) },
        { act := .host (.addInterface "uplink-of-the-barn" (some ⟨[2, 0, 0, 0, 0, 9], rfl⟩) 9000 0) },
        { act := .block (.addBudget 4096 false) },
        { act := .splice (.start 0) }]
    let turns : List Turn :=
      [{ act := .splice (.plug 0 "uplink-of-the-house" 3 own) },
        { act := .host (.changeTable fun t => t.modifyNamed "lo0" fun i => { i with mtu := 1500 }) },
        { act := .splice (.unplug 0 3) },
        { act := .splice (.plug 0 "uplink-of-the-house" 4 own) }]
    (s.run turns).network.plane.table.etherNames = ["uplink-of-the-house", "uplink-of-the-barn"] ∧
      ((s.run turns).network.plug 0 "uplink-of-the-barn" 3 own).1 = .ok false ∧
      (∃ plug, plug.index = 3 ∧
        (((s.run turns).network.plug 0 "uplink-of-the-barn" 3 own).2.registry 0).byId? 3 = some plug ∧
        (((s.run turns).network.plug 0 "uplink-of-the-barn" 3 own).2.registry 0).byName? "uplink-of-the-barn" =
          some plug) ∧
      ((s.run turns).network.plug 0 "lo0" 5 own).1 = .error .notFound := by
  intro own s turns
  have hsize : 0 < s.network.splices.size := by decide +kernel
  have hnone : (s.network.registry 0).plugs = [] := by decide +kernel
  have hnamed : s.network.plane.table.WellNamed := by decide +kernel
  have hkept : ∀ k ≤ turns.length,
      (s.run (turns.take k)).network.plane.table.members.Perm s.network.plane.table.members := by decide +kernel
  obtain ⟨hlisted, hunlisted⟩ := run_pluggable s hsize hnone hnamed turns hkept
  have hnames : (s.run turns).network.plane.table.etherNames = ["uplink-of-the-house", "uplink-of-the-barn"] := by
    decide +kernel
  have hbarn : "uplink-of-the-barn" ∈ (s.run turns).network.plane.table.etherNames := hnames ▸ by decide
  obtain ⟨i, hi, realMac, hname, -, -, hplug⟩ := hlisted "uplink-of-the-barn" hbarn
  -- the only interface of that name
  have hthird : i.index = 3 ∧ i.isUp = false := by
    have hall : ∀ j ∈ (s.run turns).network.plane.table.interfaces,
        j.name = "uplink-of-the-barn" → j.index = 3 ∧ j.isUp = false := by decide +kernel
    exact hall i hi hname
  rw [hthird.1, hthird.2] at hplug
  have hid : ((s.run turns).network.registry 0).byId? 3 = none := by decide +kernel
  have hindex : ((s.run turns).network.registry 0).byIndex? 3 = none := by decide +kernel
  have hgrants : (s.run turns).network.memory.Grants ((s.run turns).network.budgetOf 0) Registry.recordNote
      Registry.recordSize := by decide +kernel
  obtain ⟨hup, plug, -, hplugged, -, -, -, hbyId, hbyName, -⟩ := hplug 3 own hid hindex hgrants
  refine ⟨hnames, hup, ⟨plug, hplugged, hbyId, hbyName⟩, hunlisted "lo0" 5 own ?_⟩
  rw [hnames]
  decide +kernel

end Scene

end Patchbay
