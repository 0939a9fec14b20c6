import Mathlib.Data.List.Nodup
import Patchbay.Proofs.Registry.Roster

/-!
# `Proofs.Registry.Marks` — who marked an interface

Plugging an interface that nothing is attached to leaves a mark on it, and the plug remembers that the mark is its own.
Unplugging takes away a mark only of the plug's own. A table that nobody else writes tells by its attachments which
interfaces are marked: a marked one was free before, and any other is as it was.

## Contents
* `Table.Distinct`, `Table.indices` — each interface has an index of its own;
* `Table.Marks` — attachments are the original ones but for the marks; `Marks.plug`, `Marks.unplug`;
* `Registry.IsMarking` — a plug of the registry left the mark; `Registry.marks_plug`, `Registry.marks_unplug`.
-/

namespace Patchbay

namespace Table

variable {t : Table} {i j : Interface} {f : Interface → Interface} {picks : Interface → Bool}

/-! ## Indices -/

/-- The indices in order. -/
def indices (t : Table) : List Nat := t.interfaces.map Interface.index

/-- No index is given twice. -/
def Distinct (t : Table) : Prop := t.indices.Nodup

instance (t : Table) : Decidable t.Distinct := inferInstanceAs (Decidable (List.Nodup _))

/-- Interfaces stay apart while their indices are the same. -/
theorem Distinct.of_indices {t' : Table} (h : t.Distinct) (heq : t'.indices = t.indices) : t'.Distinct := by
  rw [Distinct, heq]
  exact h

/-- A change that leaves the index of an interface leaves all indices. -/
theorem map_index_modifyFirst (hf : ∀ i, (f i).index = i.index) (is : List Interface) :
    (modifyFirst f picks is).map Interface.index = is.map Interface.index := by
  induction is with
  | nil => rfl
  | cons i rest ih =>
    unfold modifyFirst
    by_cases hpicks : picks i = true
    · simp [hpicks, hf]
    · simp [hpicks, ih]

theorem indices_modify (t : Table) (index : Nat) (hf : ∀ i, (f i).index = i.index) :
    (t.modify index f).indices = t.indices :=
  map_index_modifyFirst hf t.interfaces

theorem indices_modifyNamed (t : Table) (name : String) (hf : ∀ i, (f i).index = i.index) :
    (t.modifyNamed name f).indices = t.indices :=
  map_index_modifyFirst hf t.interfaces

/-- Where indices are distinct, the one that is picked changes, and the others are known by their indices. -/
theorem mem_modifyFirst {is : List Interface} (hd : (is.map Interface.index).Nodup) (hfind : is.find? picks = some i) :
    j ∈ modifyFirst f picks is ↔ j = f i ∨ (j ∈ is ∧ j.index ≠ i.index) := by
  induction is with
  | nil => cases hfind
  | cons first rest ih =>
    rw [List.map_cons, List.nodup_cons] at hd
    unfold modifyFirst
    by_cases hpicks : picks first = true
    · obtain rfl : first = i := by simpa [List.find?_cons, hpicks] using hfind
      have hrest : ∀ j ∈ rest, j.index ≠ first.index := fun j hj heq => hd.1 (heq ▸ List.mem_map_of_mem hj)
      simp only [hpicks, if_true, List.mem_cons]
      constructor
      · rintro (hj | hj)
        · exact .inl hj
        · exact .inr ⟨.inr hj, hrest j hj⟩
      · rintro (hj | ⟨hj | hj, hne⟩)
        · exact .inl hj
        · exact absurd (congrArg Interface.index hj) hne
        · exact .inr hj
    · have hfound : rest.find? picks = some i := by simpa [List.find?_cons, hpicks] using hfind
      have hne : first.index ≠ i.index := fun heq =>
        hd.1 (heq ▸ List.mem_map_of_mem (List.mem_of_find?_eq_some hfound))
      simp only [hpicks, List.mem_cons]
      rw [if_neg Bool.false_ne_true, List.mem_cons, ih hd.2 hfound]
      constructor
      · rintro (rfl | hj | ⟨hj, hother⟩)
        · exact .inr ⟨.inl rfl, hne⟩
        · exact .inl hj
        · exact .inr ⟨.inr hj, hother⟩
      · rintro (hj | ⟨hj | hj, hother⟩)
        · exact .inr (.inl hj)
        · exact .inl hj
        · exact .inr (.inr ⟨hj, hother⟩)

/-- Where no interface is picked, none is changed. -/
theorem modifyFirst_of_none {is : List Interface} (hfind : is.find? picks = none) : modifyFirst f picks is = is := by
  induction is with
  | nil => rfl
  | cons first rest ih =>
    rw [List.find?_cons] at hfind
    unfold modifyFirst
    split at hfind
    · cases hfind
    · rename_i hpicks
      simp [hpicks, ih hfind]

/-! ## Marks -/

/-- The attachments are the original ones, but an interface that is marked was free. -/
structure Marks (t : Table) (original : Nat → Attachment) (marked : Nat → Prop) : Prop where
  synthetic : ∀ i ∈ t.interfaces, marked i.index → i.attachment = .synthetic ∧ original i.index = .none
  kept : ∀ i ∈ t.interfaces, ¬ marked i.index → i.attachment = original i.index

variable {original : Nat → Attachment} {marked marked' : Nat → Prop}

/-- It is the same marks that are meant, however they are described. -/
theorem Marks.congr (h : t.Marks original marked) (hiff : ∀ index, marked' index ↔ marked index) :
    t.Marks original marked' := by
  rwa [show marked' = marked from funext fun index => propext (hiff index)]

theorem marks_or_false : (t.Marks original fun index => marked index ∨ False) ↔ t.Marks original marked := by
  simp only [or_false]

/-- Plugging marks an interface that nothing is attached to. -/
theorem Marks.plug (h : t.Marks original marked) (hd : t.Distinct) {name : String} (hfind : t.find? name = some i) :
    (t.modifyNamed name Registry.hooked).Marks original
      (fun index => marked index ∨ (index = i.index ∧ i.attachment = .none)) := by
  have hi := List.mem_of_find?_eq_some hfind
  constructor
  · intro j hj hmarked
    rcases (mem_modifyFirst hd hfind).1 hj with rfl | ⟨hold, hne⟩
    · change marked i.index ∨ _ at hmarked
      show (Registry.hooked i).attachment = .synthetic ∧ original i.index = .none
      unfold Registry.hooked
      by_cases hfree : i.attachment = .none
      · have hnot : ¬ marked i.index := fun hm => by simp [(h.synthetic i hi hm).1] at hfree
        simp [hfree, ← h.kept i hi hnot]
      · have hm := hmarked.resolve_right fun hnew => hfree hnew.2
        simp [h.synthetic i hi hm]
    · exact h.synthetic j hold (hmarked.resolve_right fun hnew => hne hnew.1)
  · intro j hj hmarked
    rcases (mem_modifyFirst hd hfind).1 hj with rfl | ⟨hold, hne⟩
    · change ¬ (marked i.index ∨ _) at hmarked
      rw [not_or] at hmarked
      have hattached : i.attachment ≠ .none := fun hfree => hmarked.2 ⟨rfl, hfree⟩
      exact (if_neg hattached).trans (h.kept i hi hmarked.1)
    · exact h.kept j hold fun hm => hmarked (.inl hm)

/-- Unplugging takes a mark away. -/
theorem Marks.unplug (h : t.Marks original marked) (hd : t.Distinct) {index : Nat} (hmarked : marked index) :
    (t.modify index Registry.unmarked).Marks original (fun other => marked other ∧ other ≠ index) := by
  cases hfind : t.interfaces.find? (·.index = index) with
  | none =>
    -- the interface has gone from the host
    have hgone : ∀ j ∈ t.interfaces, j.index ≠ index := fun j hj => by simpa using List.find?_eq_none.1 hfind j hj
    have hsame : t.modify index Registry.unmarked = t := by rw [modify, modifyFirst_of_none hfind]
    rw [hsame]
    exact ⟨fun j hj hm => h.synthetic j hj hm.1, fun j hj hm => h.kept j hj fun hold => hm ⟨hold, hgone j hj⟩⟩
  | some i =>
    have hi := List.mem_of_find?_eq_some hfind
    have hindex : i.index = index := by simpa using List.find?_some hfind
    subst hindex
    obtain ⟨hsynthetic, hfree⟩ := h.synthetic i hi hmarked
    constructor
    · intro j hj hm
      rcases (mem_modifyFirst hd hfind).1 hj with rfl | ⟨hold, hne⟩
      · exact absurd rfl hm.2
      · exact h.synthetic j hold hm.1
    · intro j hj hm
      rcases (mem_modifyFirst hd hfind).1 hj with rfl | ⟨hold, hne⟩
      · show (Registry.unmarked i).attachment = original i.index
        simp [Registry.unmarked, hsynthetic, hfree]
      · exact h.kept j hold fun hold => hm ⟨hold, hne⟩

end Table

/-- A holder that goes takes no mark away. -/
theorem Backplane.table_dropPlug (p : Backplane) (plug : Plug) : (p.dropPlug plug).table = p.table := by
  unfold dropPlug
  dsimp only
  split <;> rfl

/-! ## Who set a mark -/

namespace Registry

variable {r : Registry} {p : Backplane} {original : Nat → Attachment} {others : Nat → Prop}

/-- A plug of the registry left its mark on the interface with an index. -/
def IsMarking (r : Registry) (index : Nat) : Prop :=
  ∃ plug ∈ r.plugs, plug.marked = true ∧ plug.index = index

/-- A registry without plugs has set no mark. -/
theorem not_isMarking_of_plugs_eq_nil (h : r.plugs = []) (index : Nat) : ¬ r.IsMarking index := by
  rintro ⟨plug, hplug, -⟩
  simp [h] at hplug

/-- A further plug adds its own mark, if it set one. -/
theorem isMarking_append {plug : Plug} {count index : Nat} :
    IsMarking ⟨r.plugs ++ [plug], count⟩ index ↔ r.IsMarking index ∨ (plug.marked = true ∧ plug.index = index) := by
  simp [IsMarking, or_and_right, exists_or]

/-- An id is unknown, or the mark of its plug is taken off the table. -/
theorem unplug_cases (r : Registry) (p : Backplane) (id : Nat) :
    (r.byId? id = none ∧ r.unplug p id = (false, r, p)) ∨
    ∃ plug, r.byId? id = some plug ∧ (r.unplug p id).2.2.table =
      if plug.marked = true then p.table.modify plug.index unmarked else p.table := by
  unfold unplug
  cases hfind : r.byId? id with
  | none => exact .inl ⟨rfl, rfl⟩
  | some plug =>
    exact .inr ⟨plug, rfl, Backplane.table_dropPlug _ plug⟩

/-- Plugging neither adds nor removes an interface. -/
theorem indices_plug (r : Registry) (p : Backplane) (budget : Nat) (name : String) (id : Nat) (virtualMac : Mac) :
    (r.plug p budget name id virtualMac).2.2.table.indices = p.table.indices := by
  rcases r.plug_cases p budget name id virtualMac with ⟨e, m, hr⟩ | ⟨i, realMac, record, m, -, -, -, -, hr⟩
  · rw [hr]
  · rw [hr]
    exact p.table.indices_modifyNamed name fun _ => rfl

/-- Plugging leaves a mark just where it finds the interface free. -/
theorem marks_plug (h : p.table.Marks original fun index => r.IsMarking index ∨ others index) (hd : p.table.Distinct)
    (budget : Nat) (name : String) (id : Nat) (virtualMac : Mac) :
    (r.plug p budget name id virtualMac).2.2.table.Marks original fun index =>
      (r.plug p budget name id virtualMac).2.1.IsMarking index ∨ others index := by
  rcases r.plug_cases p budget name id virtualMac with ⟨e, m, hr⟩ | ⟨i, realMac, record, m, hfind, -, -, -, hr⟩
  · rw [hr]
    exact h
  · rw [hr]
    refine (h.plug hd hfind).congr fun index => ?_
    have hfresh : (fresh p i realMac virtualMac id record).marked = true ∧ i.index = index ↔
        index = i.index ∧ i.attachment = .none := by
      rw [and_comm, eq_comm, fresh, decide_eq_true_iff]
    rw [isMarking_append, or_right_comm]
    exact or_congr_right hfresh

/-- What marks an interface behind a plug call marked it before, or found it free. -/
theorem IsMarking.of_plug {budget : Nat} {name : String} {id : Nat} {virtualMac : Mac} {index : Nat}
    (h : (r.plug p budget name id virtualMac).2.1.IsMarking index) :
    r.IsMarking index ∨ ∃ i ∈ p.table.interfaces, i.index = index ∧ i.attachment = .none := by
  rcases r.plug_cases p budget name id virtualMac with ⟨e, m, hr⟩ | ⟨i, realMac, record, m, hfind, -, -, -, hr⟩
  · rw [hr] at h
    exact .inl h
  · rw [hr] at h
    refine (isMarking_append.1 h).imp_right fun hfresh => ⟨i, List.mem_of_find?_eq_some hfind, hfresh.2, ?_⟩
    exact of_decide_eq_true hfresh.1

/-- After an id is unplugged no mark is left that was not there before. -/
theorem IsMarking.of_unplug (hr : r.Sound) {id index : Nat} (h : (r.unplug p id).2.1.IsMarking index) :
    r.IsMarking index := by
  obtain ⟨plug, hplug, hmarked, hindex⟩ := h
  rw [plugs_unplug hr] at hplug
  exact ⟨plug, List.mem_of_mem_filter hplug, hmarked, hindex⟩

/-- Nor does unplugging add or remove an interface. -/
theorem indices_unplug (r : Registry) (p : Backplane) (id : Nat) :
    (r.unplug p id).2.2.table.indices = p.table.indices := by
  rcases r.unplug_cases p id with ⟨-, hr⟩ | ⟨plug, -, htable⟩
  · rw [hr]
  · rw [htable]
    split
    · exact p.table.indices_modify plug.index fun _ => rfl
    · rfl

/-- An interface that was marked still is, unless it was by the plug that is unplugged. -/
theorem isMarking_unplug_iff (hr : r.Sound) {plug : Plug} {id : Nat} (hfind : r.byId? id = some plug) (index : Nat) :
    (r.unplug p id).2.1.IsMarking index ↔ r.IsMarking index ∧ ¬ (plug.marked = true ∧ index = plug.index) := by
  obtain ⟨hplug, hid⟩ := hr.byId?_iff.1 hfind
  unfold IsMarking
  rw [plugs_unplug hr]
  constructor
  · rintro ⟨other, hother, hmarked, rfl⟩
    obtain ⟨hin, hne⟩ := List.mem_filter.1 hother
    refine ⟨⟨other, hin, hmarked, rfl⟩, fun hsame => ?_⟩
    -- no other plug is on the same interface
    have heq := List.inj_on_of_nodup_map hr.indices hin hplug hsame.2
    simp [heq, hid] at hne
  · rintro ⟨⟨other, hin, hmarked, rfl⟩, hne⟩
    refine ⟨other, List.mem_filter.2 ⟨hin, ?_⟩, hmarked, rfl⟩
    refine decide_eq_true fun heq => hne ?_
    have hsame : other = plug := List.inj_on_of_nodup_map hr.ids hin hplug (heq.trans hid.symm)
    exact ⟨hsame ▸ hmarked, by rw [hsame]⟩

/-- Unplugging takes away the mark that the plug left. -/
theorem marks_unplug (hr : r.Sound) (h : p.table.Marks original fun index => r.IsMarking index ∨ others index)
    (hd : p.table.Distinct) (halone : ∀ index, r.IsMarking index → ¬ others index) (id : Nat) :
    (r.unplug p id).2.2.table.Marks original fun index => (r.unplug p id).2.1.IsMarking index ∨ others index := by
  rcases r.unplug_cases p id with ⟨-, hnone⟩ | ⟨plug, hfind, htable⟩
  · rw [hnone]
    exact h
  · have hmarking := isMarking_unplug_iff (p := p) hr hfind
    rw [htable]
    by_cases hmarked : plug.marked = true
    · have hmine : r.IsMarking plug.index := ⟨plug, (hr.byId?_iff.1 hfind).1, hmarked, rfl⟩
      rw [if_pos hmarked]
      refine (h.unplug hd (.inl hmine)).congr fun index => ?_
      rw [hmarking]
      constructor
      · rintro (⟨hr, hne⟩ | hothers)
        · exact ⟨.inl hr, fun heq => hne ⟨hmarked, heq⟩⟩
        · exact ⟨.inr hothers, fun heq => halone _ hmine (heq ▸ hothers)⟩
      · rintro ⟨hr | hothers, hne⟩
        · exact .inl ⟨hr, fun heq => hne heq.2⟩
        · exact .inr hothers
    · rw [if_neg hmarked]
      refine h.congr fun index => ?_
      rw [hmarking, and_iff_left fun heq => hmarked heq.1]

/-- Where nothing is plugged, unplugging does nothing. -/
theorem unplug_of_empty (hr : r.plugs = []) (p : Backplane) (id : Nat) : r.unplug p id = (false, r, p) := by
  rw [unplug, byId?, hr]
  rfl

theorem unplugEverything_of_empty (hr : r.plugs = []) (p : Backplane) : r.unplugEverything p = (0, r, p) := by
  rw [unplugEverything, ids, hr]
  rfl

theorem indices_unplugEach (r : Registry) (p : Backplane) (ids : List Nat) :
    (r.unplugEach p ids).2.2.table.indices = p.table.indices := by
  induction ids generalizing r p with
  | nil => rfl
  | cons id rest ih => exact (ih _ _).trans (r.indices_unplug p id)

/-- Of many ids that are unplugged each takes its own mark away. -/
theorem marks_unplugEach (hr : r.Sound) (h : p.table.Marks original r.IsMarking) (hd : p.table.Distinct)
    (ids : List Nat) :
    (r.unplugEach p ids).2.2.table.Marks original (r.unplugEach p ids).2.1.IsMarking := by
  -- on the ids: what each leaves is marked by the plugs that are left
  induction ids generalizing r p with
  | nil => exact h
  | cons id rest ih =>
    have hfirst := marks_unplug hr (Table.marks_or_false.2 h) hd (fun _ _ hfalse => hfalse) id
    exact ih (hr.unplug p id) (Table.marks_or_false.1 hfirst) (hd.of_indices (r.indices_unplug p id))

end Registry

end Patchbay
