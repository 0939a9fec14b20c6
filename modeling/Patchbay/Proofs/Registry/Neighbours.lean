import Mathlib.Logic.Relation
import Patchbay.Proofs.Registry.Marks

/-!
# `Proofs.Registry.Neighbours` — registries that share a host

Any number of registries plug and unplug on one interface table. The mark on an interface belongs to the plug that set
it, whoever else has the interface plugged by then: it is there as long as this plug is, and with nothing plugged every
interface is as it was.

## Contents
* `Crowd`, `Crowd.Step` — registries on one backplane, and what can happen next;
* `Crowd.Kept` — what steps keep: marks are those of the plugs, and no two plugs left the same one;
* `Crowd.Tidy`, `Crowd.reached_tidy` — what attachments tell in every state that is reached;
* `Crowd.not_hooked_second` — an interface that is plugged may have no mark.
-/

namespace Patchbay

/-- Registries on one backplane. -/
structure Crowd (ι : Type) where
  registry : ι → Registry := fun _ => {}
  backplane : Backplane := {}

namespace Crowd

variable {ι : Type} [DecidableEq ι] {s s' : Crowd ι} {original : Nat → Attachment}

/-! ## Steps -/

/-- The crowd with one registry and the backplane replaced. -/
def put (s : Crowd ι) (who : ι) (result : Registry × Backplane) : Crowd ι :=
  ⟨Function.update s.registry who result.1, result.2⟩

/-- One registry plugs an interface, or is refused. -/
def plug (s : Crowd ι) (who : ι) (budget : Nat) (name : String) (id : Nat) (virtualMac : Mac) : Crowd ι :=
  s.put who ((s.registry who).plug s.backplane budget name id virtualMac).2

def unplug (s : Crowd ι) (who : ι) (id : Nat) : Crowd ι :=
  s.put who ((s.registry who).unplug s.backplane id).2

/-- Some registry has the interface with an index plugged. -/
def IsPlugged (s : Crowd ι) (index : Nat) : Prop :=
  ∃ who, ∃ plug ∈ (s.registry who).plugs, plug.index = index

/-- The plug that left the mark on the interface with an index is still there. -/
def IsMarked (s : Crowd ι) (index : Nat) : Prop :=
  ∃ who, (s.registry who).IsMarking index

/-- The host changes around its registries: interfaces go, and what stays keeps its attachment. What comes, comes
under an index that nobody has plugged. -/
structure Around (original : Nat → Attachment) (s s' : Crowd ι) : Prop where
  registry : s'.registry = s.registry
  distinct : s'.backplane.table.Distinct
  interfaces : ∀ i ∈ s'.backplane.table.interfaces,
    (∃ was ∈ s.backplane.table.interfaces, was.index = i.index ∧ was.attachment = i.attachment) ∨
      (i.attachment = original i.index ∧ ¬ s.IsPlugged i.index)

/-- What can happen next. -/
inductive Step (original : Nat → Attachment) (s : Crowd ι) : Crowd ι → Prop where
  | plug (who : ι) (budget : Nat) (name : String) (id : Nat) (virtualMac : Mac) :
    Step original s (s.plug who budget name id virtualMac)
  | unplug (who : ι) (id : Nat) : Step original s (s.unplug who id)
  | host (s' : Crowd ι) (around : s.Around original s') : Step original s s'

/-! ## What steps keep -/

/-- Attachments are the original ones but for the marks of plugs, and no two plugs left the same mark. -/
structure Kept (original : Nat → Attachment) (s : Crowd ι) : Prop where
  distinct : s.backplane.table.Distinct
  sound : ∀ who, (s.registry who).Sound
  marks : s.backplane.table.Marks original s.IsMarked
  alone : ∀ index one other, (s.registry one).IsMarking index → (s.registry other).IsMarking index → one = other

/-- A registry other than one left the mark. -/
def MarkedBeside (s : Crowd ι) (who : ι) (index : Nat) : Prop :=
  ∃ other, other ≠ who ∧ (s.registry other).IsMarking index

theorem isMarked_iff (s : Crowd ι) (who : ι) (index : Nat) :
    s.IsMarked index ↔ (s.registry who).IsMarking index ∨ s.MarkedBeside who index := by
  constructor
  · rintro ⟨other, hother⟩
    by_cases heq : other = who
    · exact .inl (heq ▸ hother)
    · exact .inr ⟨other, heq, hother⟩
  · rintro (hmine | ⟨other, -, hother⟩)
    · exact ⟨who, hmine⟩
    · exact ⟨other, hother⟩

@[simp] theorem registry_put_self (s : Crowd ι) (who : ι) (result : Registry × Backplane) :
    (s.put who result).registry who = result.1 := by
  simp [put]

theorem registry_put_of_ne (s : Crowd ι) {who other : ι} (result : Registry × Backplane) (h : other ≠ who) :
    (s.put who result).registry other = s.registry other := by
  simp [put, Function.update_of_ne h]

theorem isMarked_put (s : Crowd ι) (who : ι) (result : Registry × Backplane) (index : Nat) :
    (s.put who result).IsMarked index ↔ result.1.IsMarking index ∨ s.MarkedBeside who index := by
  rw [isMarked_iff _ who, registry_put_self]
  refine or_congr_right (exists_congr fun other => and_congr_right fun hne => ?_)
  rw [registry_put_of_ne s result hne]

namespace Kept

/-- One registry works on the backplane, and leaves no mark that another one left. -/
theorem put (h : s.Kept original) (who : ι) {result : Registry × Backplane} (hsound : result.1.Sound)
    (hindices : result.2.table.indices = s.backplane.table.indices)
    (hmarks : result.2.table.Marks original fun index => result.1.IsMarking index ∨ s.MarkedBeside who index)
    (halone : ∀ index, result.1.IsMarking index → ¬ s.MarkedBeside who index) : (s.put who result).Kept original where
  distinct := h.distinct.of_indices hindices
  sound := by
    intro other
    by_cases heq : other = who
    · rw [heq, registry_put_self]
      exact hsound
    · rw [registry_put_of_ne s result heq]
      exact h.sound other
  marks := hmarks.congr fun index => s.isMarked_put who result index
  alone := by
    intro index one other hone hother
    by_cases hfirst : one = who
    · by_cases hsecond : other = who
      · rw [hfirst, hsecond]
      · subst hfirst
        rw [registry_put_self] at hone
        rw [registry_put_of_ne s result hsecond] at hother
        exact absurd ⟨other, hsecond, hother⟩ (halone index hone)
    · rw [registry_put_of_ne s result hfirst] at hone
      by_cases hsecond : other = who
      · subst hsecond
        rw [registry_put_self] at hother
        exact absurd ⟨one, hfirst, hone⟩ (halone index hother)
      · rw [registry_put_of_ne s result hsecond] at hother
        exact h.alone index one other hone hother

/-- The marks that are there, one registry told from the others. -/
theorem marks_beside (h : s.Kept original) (who : ι) :
    s.backplane.table.Marks original fun index => (s.registry who).IsMarking index ∨ s.MarkedBeside who index :=
  h.marks.congr fun index => (s.isMarked_iff who index).symm

omit [DecidableEq ι] in
theorem not_markedBeside (h : s.Kept original) {who : ι} {index : Nat} (hmine : (s.registry who).IsMarking index) :
    ¬ s.MarkedBeside who index := by
  rintro ⟨other, hne, hother⟩
  exact hne (h.alone index other who hother hmine)

theorem plug (h : s.Kept original) (who : ι) (budget : Nat) (name : String) (id : Nat) (virtualMac : Mac) :
    (s.plug who budget name id virtualMac).Kept original := by
  refine h.put who ((h.sound who).plug s.backplane budget name id virtualMac) (Registry.indices_plug ..)
    (Registry.marks_plug (h.marks_beside who) h.distinct budget name id virtualMac) fun index hmarking => ?_
  rcases hmarking.of_plug with hmine | ⟨i, hi, rfl, hfree⟩
  · exact h.not_markedBeside hmine
  · -- an interface that others marked is not free
    rintro ⟨other, -, hother⟩
    simp [(h.marks.synthetic i hi ⟨other, hother⟩).1] at hfree

theorem unplug (h : s.Kept original) (who : ι) (id : Nat) : (s.unplug who id).Kept original := by
  refine h.put who ((h.sound who).unplug s.backplane id) (Registry.indices_unplug ..)
    (Registry.marks_unplug (h.sound who) (h.marks_beside who) h.distinct (fun _ => h.not_markedBeside) id) ?_
  exact fun index hmarking => h.not_markedBeside (hmarking.of_unplug (h.sound who))

omit [DecidableEq ι] in
/-- The host changes around registries that stay. -/
theorem host (h : s.Kept original) (ha : s.Around original s') : s'.Kept original := by
  have hmarked : s'.IsMarked = s.IsMarked := by
    unfold IsMarked
    rw [ha.registry]
  have hplugged (index : Nat) (hm : s.IsMarked index) : s.IsPlugged index := by
    obtain ⟨who, plug, hplug, -, hindex⟩ := hm
    exact ⟨who, plug, hplug, hindex⟩
  refine ⟨ha.distinct, fun who => ha.registry ▸ h.sound who, ?_, fun index => ha.registry ▸ h.alone index⟩
  rw [hmarked]
  constructor
  · intro i hi hm
    rcases ha.interfaces i hi with ⟨was, hwas, hindex, hattachment⟩ | ⟨-, hfree⟩
    · rw [← hindex] at hm ⊢
      rw [← hattachment]
      exact h.marks.synthetic was hwas hm
    · exact absurd (hplugged _ hm) hfree
  · intro i hi hm
    rcases ha.interfaces i hi with ⟨was, hwas, hindex, hattachment⟩ | ⟨hnew, -⟩
    · rw [← hindex] at hm ⊢
      rw [← hattachment]
      exact h.marks.kept was hwas hm
    · exact hnew

theorem step (h : s.Kept original) (hstep : s.Step original s') : s'.Kept original := by
  cases hstep with
  | plug who budget name id virtualMac => exact h.plug who budget name id virtualMac
  | unplug who id => exact h.unplug who id
  | host s' ha => exact h.host ha

theorem reached (h : s.Kept original) (hreach : Relation.ReflTransGen (Step original) s s') : s'.Kept original := by
  induction hreach with
  | refl => exact h
  | tail _ hstep ih => exact ih.step hstep

end Kept

/-! ## What attachments tell -/

omit [DecidableEq ι] in
/-- With nothing plugged, everything is as it was. -/
theorem Kept.start {p : Backplane} (hd : p.table.Distinct)
    (horiginal : ∀ i ∈ p.table.interfaces, i.attachment = original i.index) :
    Kept original ({ backplane := p } : Crowd ι) where
  distinct := hd
  sound := fun _ => .empty
  marks := by
    refine ⟨fun i _ hm => ?_, fun i hi _ => horiginal i hi⟩
    obtain ⟨who, plug, hplug, -⟩ := hm
    cases hplug
  alone := by
    rintro index one other ⟨plug, hplug, -⟩
    cases hplug

/-- What attachments tell of the plugs. -/
structure Tidy (original : Nat → Attachment) (s : Crowd ι) : Prop where
  /-- What is plugged has an attachment as long as it had one before, or the plug that marked it is there. -/
  hooked : ∀ i ∈ s.backplane.table.interfaces, s.IsPlugged i.index →
    (i.attachment ≠ .none ↔ original i.index ≠ .none ∨ s.IsMarked i.index)
  restored : ∀ i ∈ s.backplane.table.interfaces, ¬ s.IsPlugged i.index → i.attachment = original i.index

/-- **A mark lasts as long as the plug that set it.** However many registries plug and unplug on one host, and whatever
interfaces come and go meanwhile: of the interfaces that are plugged somewhere, those are attached that were so before
anybody plugged them, or whose mark is that of a plug that is still there; and those that nobody has plugged any more
are as they were. -/
theorem reached_tidy {p : Backplane} (hd : p.table.Distinct)
    (horiginal : ∀ i ∈ p.table.interfaces, i.attachment = original i.index)
    (hreach : Relation.ReflTransGen (Step original) ({ backplane := p } : Crowd ι) s) : s.Tidy original := by
  have h := (Kept.start hd horiginal).reached hreach
  constructor
  · intro i hi _
    by_cases hm : s.IsMarked i.index
    · simp [(h.marks.synthetic i hi hm).1, hm]
    · simp [h.marks.kept i hi hm, hm]
  · rintro i hi hnot
    refine h.marks.kept i hi ?_
    rintro ⟨who, plug, hplug, -, hindex⟩
    exact hnot ⟨who, plug, hplug, hindex⟩

/-- Two registries on a host with one interface, of which the one that came second leaves first. -/
theorem reached_tidy_nested :
    let own : Mac := ⟨[2, 0, 0, 0, 0, 2], rfl⟩
    let p : Backplane :=
      { memory := (({} : Memory).addBudget 4096 false).2
        table := ⟨[{ index := 1, name := "", mtu := 1500, flags := 1, addresses := [some own] }]⟩ }
    let s : Crowd Bool := (({ backplane := p } : Crowd Bool).plug false 0 "" 3 own).plug true 0 "" 8 own
    s.IsPlugged 1 ∧ (s.unplug true 8).IsPlugged 1 ∧ (s.unplug true 8).Tidy fun _ => .none := by
  intro own p s
  have hreach : Relation.ReflTransGen (Step fun _ => .none) { backplane := p } (s.unplug true 8) :=
    ((Relation.ReflTransGen.single (.plug false 0 "" 3 own)).tail (.plug true 0 "" 8 own)).tail (.unplug true 8)
  exact ⟨⟨true, by decide +kernel⟩, ⟨false, by decide +kernel⟩, reached_tidy (by decide) (by decide) hreach⟩

/-- If the registry that came first leaves first, it takes the mark with it: the interface is plugged in the other one,
and goes as one that nothing is attached to. -/
theorem not_hooked_second :
    let own : Mac := ⟨[2, 0, 0, 0, 0, 2], rfl⟩
    let p : Backplane :=
      { memory := (({} : Memory).addBudget 4096 false).2
        table := ⟨[{ index := 1, name := "", mtu := 1500, flags := 1, addresses := [some own] }]⟩ }
    let s : Crowd Bool :=
      ((({ backplane := p } : Crowd Bool).plug false 0 "" 3 own).plug true 0 "" 8 own).unplug false 3
    Relation.ReflTransGen (Step fun _ => .none) { backplane := p } s ∧
      ∃ i ∈ s.backplane.table.interfaces, s.IsPlugged i.index ∧ i.attachment = .none := by
  intro own p s
  refine ⟨((Relation.ReflTransGen.single (.plug false 0 "" 3 own)).tail (.plug true 0 "" 8 own)).tail (.unplug false 3),
    ?_⟩
  have hfree : ∃ i ∈ s.backplane.table.interfaces,
      (∃ plug ∈ (s.registry true).plugs, plug.index = i.index) ∧ i.attachment = .none := by decide +kernel
  obtain ⟨i, hi, hplugged, hnone⟩ := hfree
  exact ⟨i, hi, ⟨true, hplugged⟩, hnone⟩

end Crowd

end Patchbay
