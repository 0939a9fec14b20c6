import Patchbay.Proofs.Registry.Writers
import Patchbay.Proofs.Slot.Moves

/-!
# `Proofs.Registry.Residue` — what a splice leaves behind on the host

A splice marks interfaces as its consumer plugs them, and takes the marks back as they are unplugged. When it is torn
down, everything is unplugged; but it is torn down only once, and its consumer may plug again after that. So whether
the host's interfaces are as before once the splice is gone depends on what is plugged at its end.

## Contents
* `Table.attachments`, `Table.attachmentAt` — what is attached to the interfaces of a table;
* `Network.Signed` — a table differs from another one by the marks of one splice; `Signed.attachments_eq_iff`;
* `Signed.plug`, `Signed.unplug`, `Signed.tearDown`, `Signed.leaves` — what is done keeps that up;
* `Scene.Uses`, `Scene.drop_restores_iff` — when the end of a splice leaves the host as it was;
* `Scene.not_restored_late` — when it does not.
-/

namespace Patchbay

namespace Table

variable {t t' : Table} {original : Nat → Attachment} {marked : Nat → Prop}

/-- The interfaces by index and attachment, in order. -/
def attachments (t : Table) : List (Nat × Attachment) := t.interfaces.map fun i => (i.index, i.attachment)

/-- What is attached to the interface with an index. -/
def attachmentAt (t : Table) (index : Nat) : Attachment := ((t.get? index).map Interface.attachment).getD .none

theorem Distinct.attachmentAt_eq (h : t.Distinct) {i : Interface} (hi : i ∈ t.interfaces) :
    t.attachmentAt i.index = i.attachment := by
  have hfind : t.get? i.index = some i := Registry.find?_of_nodup h hi
  rw [attachmentAt, hfind]
  rfl

/-- The same marks are found by the same indices. -/
theorem attachmentAt_congr (h : t'.attachments = t.attachments) : t'.attachmentAt = t.attachmentAt := by
  have hfind (t : Table) (index : Nat) :
      t.attachmentAt index = ((t.attachments.find? (·.1 = index)).map Prod.snd).getD .none := by
    rw [attachments, List.find?_map, Option.map_map]
    rfl
  funext index
  rw [hfind, hfind, h]

theorem indices_congr (h : t'.attachments = t.attachments) : t'.indices = t.indices := by
  have hfst (t : Table) : t.indices = t.attachments.map Prod.fst := by
    rw [attachments, List.map_map]
    rfl
  rw [hfst, hfst, h]

theorem attachments_eq_of (h : ∀ i ∈ t.interfaces, i.attachment = original i.index) :
    t.attachments = t.indices.map fun index => (index, original index) := by
  rw [attachments, indices, List.map_map]
  exact List.map_congr_left fun i hi => by rw [h i hi]; rfl

/-- A table with marks is as it was just when no interface of it is marked. -/
theorem Marks.attachments_eq_iff (h : t'.Marks t.attachmentAt marked) (hd : t.Distinct)
    (hindices : t'.indices = t.indices) : t'.attachments = t.attachments ↔ ∀ index ∈ t.indices, ¬ marked index := by
  constructor
  · intro heq index hindex hm
    rw [← hindices] at hindex
    obtain ⟨i, hi, rfl⟩ := List.mem_map.1 hindex
    obtain ⟨hsynthetic, hfree⟩ := h.synthetic i hi hm
    have hin : (i.index, i.attachment) ∈ t.attachments := heq ▸ List.mem_map_of_mem hi
    obtain ⟨was, hwas, hsame⟩ := List.mem_map.1 hin
    obtain ⟨hindex, hattachment⟩ := Prod.mk.inj hsame
    rw [← hindex, hd.attachmentAt_eq hwas, hattachment, hsynthetic] at hfree
    cases hfree
  · intro hnone
    have hkept : ∀ i ∈ t'.interfaces, i.attachment = t.attachmentAt i.index := fun i hi =>
      h.kept i hi (hnone i.index (hindices ▸ List.mem_map_of_mem hi))
    rw [attachments_eq_of hkept, hindices, attachments_eq_of fun i hi => (hd.attachmentAt_eq hi).symm]

end Table

namespace Network

variable {n n' : Network} {key : Nat} {t : Table}

/-- The interface table differs from an earlier one by the marks of one splice, which somebody holds. -/
structure Signed (n : Network) (key : Nat) (t : Table) : Prop where
  held : ∃ s, n.splices[key]? = some s ∧ 0 < s.handles
  sound : (n.registry key).Sound
  indices : n.plane.table.indices = t.indices
  marks : n.plane.table.Marks t.attachmentAt (n.registry key).IsMarking
  there : ∀ plug ∈ (n.registry key).plugs, plug.index ∈ t.indices

theorem registry_eq {s : Splice} (h : n.splices[key]? = some s) : n.registry key = s.registry := by
  rw [registry, h]
  rfl

theorem registry_onRegistry_self {α : Type} {s : Splice} (h : n.splices[key]? = some s)
    (f : Registry → Backplane → α × Registry × Backplane) :
    (n.onRegistry key f).2.splices[key]? = some { s with registry := (f (n.registry key) n.plane).2.1 } ∧
      (n.onRegistry key f).2.plane = (f (n.registry key) n.plane).2.2 := by
  unfold onRegistry
  generalize f (n.registry key) n.plane = result
  obtain ⟨answer, registry, plane⟩ := result
  refine ⟨?_, rfl⟩
  exact getElem?_modifySplice_self (n := { n with plane := plane }) h _

namespace Signed

/-- The marks are all that is left of the splice on the host. -/
theorem attachments_eq_iff (h : n.Signed key t) (hd : t.Distinct) :
    n.plane.table.attachments = t.attachments ↔ ∀ index, ¬ (n.registry key).IsMarking index := by
  rw [h.marks.attachments_eq_iff hd h.indices]
  refine ⟨fun hnone index hm => ?_, fun hnone index _ => hnone index⟩
  obtain ⟨plug, hplug, -, rfl⟩ := id hm
  exact hnone _ (h.there plug hplug) hm

/-- Table and registry are the same. -/
theorem of_same (h : n.Signed key t) {s : Splice} (hs : n'.splices[key]? = some s) (hheld : 0 < s.handles)
    (htable : n'.plane.table = n.plane.table) (hregistry : s.registry = n.registry key) : n'.Signed key t := by
  have heq : n'.registry key = n.registry key := (registry_eq hs).trans hregistry
  refine ⟨⟨s, hs, hheld⟩, ?_, ?_, ?_, ?_⟩
  · rw [heq]
    exact h.sound
  · rw [htable]
    exact h.indices
  · rw [htable, heq]
    exact h.marks
  · rw [heq]
    exact h.there

/-- Any table with the same attachments is as good. -/
theorem of_attachments {t' : Table} (h : n.Signed key t) (heq : t.attachments = t'.attachments) : n.Signed key t' := by
  obtain ⟨hheld, hsound, hindices, hmarks, hthere⟩ := h
  rw [Table.attachmentAt_congr heq] at hmarks
  rw [Table.indices_congr heq] at hindices hthere
  exact ⟨hheld, hsound, hindices, hmarks, hthere⟩

/-- Whoever leaves a splice and its marks alone leaves them signed. -/
theorem leaves (h : n.Signed key t) (hl : n.Leaves n' key) : n'.Signed key t := by
  obtain ⟨s, hs, hheld⟩ := h.held
  obtain ⟨s', hs', hregistry, -, hheld'⟩ := hl.splice s hs hheld
  exact h.of_same hs' hheld' hl.table (hregistry.trans (registry_eq hs).symm)

/-- The splice does something with its registry. -/
theorem onRegistry {α : Type} {f : Registry → Backplane → α × Registry × Backplane} (h : n.Signed key t)
    (hsound : (f (n.registry key) n.plane).2.1.Sound)
    (hindices : (f (n.registry key) n.plane).2.2.table.indices = n.plane.table.indices)
    (hmarks : (f (n.registry key) n.plane).2.2.table.Marks t.attachmentAt (f (n.registry key) n.plane).2.1.IsMarking)
    (hthere : ∀ plug ∈ (f (n.registry key) n.plane).2.1.plugs, plug.index ∈ t.indices) :
    (n.onRegistry key f).2.Signed key t := by
  obtain ⟨s, hs, hheld⟩ := h.held
  obtain ⟨hs', hplane⟩ := registry_onRegistry_self hs f
  have hregistry := registry_eq hs'
  refine ⟨⟨_, hs', hheld⟩, ?_, ?_, ?_, ?_⟩
  · rw [hregistry]
    exact hsound
  · rw [hplane]
    exact hindices.trans h.indices
  · rw [hplane, hregistry]
    exact hmarks
  · rw [hregistry]
    exact hthere

theorem distinct (h : n.Signed key t) (hd : t.Distinct) : n.plane.table.Distinct := hd.of_indices h.indices

/-- A plug that sets a mark signs it. -/
theorem plug (h : n.Signed key t) (hd : t.Distinct) (name : String) (id : Nat) (mac : Mac) :
    (n.plug key name id mac).2.Signed key t := by
  refine h.onRegistry (h.sound.plug n.plane _ name id mac) (Registry.indices_plug ..) ?_ ?_
  · exact Table.marks_or_false.1
      (Registry.marks_plug (Table.marks_or_false.2 h.marks) (h.distinct hd) (n.budgetOf key) name id mac)
  · intro plug hplug
    rcases (n.registry key).plug_cases n.plane (n.budgetOf key) name id mac with
      ⟨e, m, hr⟩ | ⟨i, realMac, record, m, hfind, -, -, -, hr⟩
    · rw [hr] at hplug
      exact h.there plug hplug
    · rw [hr, List.mem_append, List.mem_singleton] at hplug
      rcases hplug with hold | rfl
      · exact h.there plug hold
      · rw [← h.indices]
        exact List.mem_map_of_mem (List.mem_of_find?_eq_some hfind)

/-- An unplugged id takes its mark away. -/
theorem unplug (h : n.Signed key t) (hd : t.Distinct) (id : Nat) : (n.unplug key id).2.Signed key t := by
  refine h.onRegistry (h.sound.unplug n.plane id) (Registry.indices_unplug ..) ?_ fun plug hplug => ?_
  · exact Table.marks_or_false.1
      (Registry.marks_unplug h.sound (Table.marks_or_false.2 h.marks) (h.distinct hd) (fun _ _ hfalse => hfalse) id)
  · exact h.there plug (Registry.plugs_unplug_subset _ _ id hplug)

/-- So does everything that is unplugged at once. -/
theorem unplugEverything (h : n.Signed key t) (hd : t.Distinct) : (n.unplugEverything key).2.Signed key t :=
  h.onRegistry (h.sound.unplugEach n.plane _) (Registry.indices_unplugEach ..)
    (Registry.marks_unplugEach h.sound h.marks (h.distinct hd) _)
    fun plug hplug => h.there plug (Registry.plugs_unplugEach_subset _ _ _ hplug)

/-- A splice that is not active any more is not torn down again; one that is unplugs everything behind what it does to
the slot. -/
theorem tearDown_cases (h : n.Signed key t) :
    (¬ n.IsActive key ∧ n.tearDown key = n) ∨
    (n.IsActive key ∧ ∃ n' : Network, n'.Signed key t ∧ n.tearDown key = (n'.unplugEverything key).2) := by
  obtain ⟨s, hs, hheld⟩ := h.held
  unfold Network.tearDown
  rw [hs]
  dsimp only
  by_cases hactive : s.active = true
  · rw [if_pos hactive]
    let n₁ := n.modifySplice key fun s => { s with active := false }
    have hget : n₁.splices[key]? = some { s with active := false } := by
      rw [getElem?_modifySplice, if_pos rfl, hs]
      rfl
    have hfirst : n₁.Signed key t := h.of_same hget hheld rfl (registry_eq hs).symm
    have hslot := (n₁.leaves_link (n₁.previous? key) key).trans (leaves_putHook _ (n₁.previous? key) key)
    exact .inr ⟨⟨s, hs, hactive⟩, _, hfirst.leaves hslot, rfl⟩
  · rw [if_neg hactive]
    refine .inl ⟨?_, rfl⟩
    rintro ⟨s', hs', hactive'⟩
    obtain rfl := Option.some.inj (hs.symm.trans hs')
    exact hactive hactive'

/-- And a splice that takes itself out of the slot. -/
theorem tearDown (h : n.Signed key t) (hd : t.Distinct) : (n.tearDown key).Signed key t := by
  rcases h.tearDown_cases with ⟨-, hsame⟩ | ⟨-, n', hsigned, heq⟩
  · rw [hsame]
    exact h
  · rw [heq]
    exact hsigned.unplugEverything hd

/-- A splice that was never torn down leaves nothing; one that was leaves the marks that were set since. -/
theorem tearDown_restores_iff (h : n.Signed key t) (hd : t.Distinct) :
    (n.tearDown key).plane.table.attachments = t.attachments ↔
      n.IsActive key ∨ ∀ index, ¬ (n.registry key).IsMarking index := by
  rw [(h.tearDown hd).attachments_eq_iff hd]
  rcases h.tearDown_cases with ⟨hdone, hsame⟩ | ⟨hactive, n', hsigned, heq⟩
  · rw [hsame, or_iff_right hdone]
  · refine iff_of_true (fun index => ?_) (.inl hactive)
    obtain ⟨s, hs, -⟩ := hsigned.held
    rw [heq, Network.unplugEverything, registry_eq (registry_onRegistry_self hs Registry.unplugEverything).1]
    exact Registry.not_isMarking_of_plugs_eq_nil (Registry.plugs_unplugEverything hsigned.sound _) index

end Signed

theorem table_dropSplice (n : Network) (hlast : n.handlesOf key = 1) :
    (n.dropSplice key).plane.table = (n.tearDown key).plane.table := by
  unfold dropSplice
  unfold handlesOf at hlast
  cases hs : n.splices[key]? with
  | none =>
    rw [hs] at hlast
    cases hlast
  | some s =>
    rw [hs] at hlast
    change s.handles = 1 at hlast
    dsimp only
    rw [if_pos hlast.le]
    exact table_disposeWithin _ _ key

/-- A splice that is started has left no mark yet. -/
theorem signed_startSplice (n : Network) (budget : Nat) (hd : n.plane.table.Distinct) :
    (n.startSplice budget).2.Signed n.splices.size n.plane.table := by
  rw [startSplice_eq]
  dsimp only
  have hget : ({ n with
      splices := n.splices.push
        { budget := budget, previous := some n.slot, active := true, handles := 1, links := 1 }
      slot := some (.splice n.splices.size) } : Network).splices[n.splices.size]? = some _ := Array.getElem?_push_size
  have hregistry := registry_eq hget
  refine ⟨⟨_, hget, Nat.one_pos⟩, ?_, rfl, ⟨fun i _ hm => ?_, fun i hi _ => (hd.attachmentAt_eq hi).symm⟩, ?_⟩
  · rw [hregistry]
    exact .empty
  · rw [hregistry] at hm
    exact absurd hm (Registry.not_isMarking_of_plugs_eq_nil rfl _)
  · rw [hregistry]
    exact fun plug hplug => absurd hplug List.not_mem_nil

end Network

/-! ## Runs -/

namespace Scene

open Network (Signed)

variable {s s' : Scene} {key : Nat} {t : Table}

/-- Acts of anybody, of which none writes the interface table but through one splice, which is left a handle. -/
inductive Uses (key : Nat) (s : Scene) : Scene → Prop where
  | refl : Uses key s s
  | step {s' : Scene} (h : Uses key s s') (turn : Turn) (suits : turn.act.Suits s'.network key) :
    Uses key s (s'.step turn)

/-- Who uses a splice may go on as long as all that happens suits it. -/
theorem Uses.run (h : s.Uses key s') {turns : List Turn} (hsuits : ∀ turn ∈ turns, ∀ n, turn.act.Suits n key) :
    s.Uses key (s'.run turns) := by
  induction turns generalizing s' with
  | nil => exact h
  | cons turn rest ih =>
    have hfirst := h.step turn (hsuits turn List.mem_cons_self _)
    exact ih hfirst fun turn' hturn' => hsuits turn' (List.mem_cons_of_mem turn hturn')

/-- An act that suits a splice leaves its marks signed. -/
theorem signed_perform (h : s.network.Signed key t) (hd : t.Distinct) {act : Act} (hsuits : act.Suits s.network key) :
    (s.perform act).network.Signed key t := by
  by_cases hown : act.isOwn key
  · cases act with
    | splice act =>
      cases act with
      | plug other name id mac =>
        obtain rfl : other = key := hown
        show (if other < _ then _ else _ : Scene).network.Signed other t
        split
        · exact h.plug hd name id mac
        · exact h
      | unplug other id =>
        obtain rfl : other = key := hown
        exact h.unplug hd id
      | unplugEverything other =>
        obtain rfl : other = key := hown
        exact h.unplugEverything hd
      | tearDown other =>
        obtain rfl : other = key := hown
        exact h.tearDown hd
      | _ => exact hown.elim
    | _ => exact hown.elim
  · exact h.leaves (s.leaves_perform hsuits hown)

/-- So it does on any lane. -/
theorem signed_step (h : s.network.Signed key t) (hd : t.Distinct) {turn : Turn}
    (hsuits : turn.act.Suits s.network key) : (s.step turn).network.Signed key t := by
  let m : Memory := { s.network.memory with heap := turn.heap, lane := turn.lane }
  have hbeside : s.network.Beside (s.network.setMemory m) := ⟨rfl, rfl⟩
  exact signed_perform (s := { s with network := s.network.setMemory m }) (h.leaves (hbeside.leaves rfl key)) hd hsuits

/-- So marks are signed at any moment while a splice is used. -/
theorem Uses.signed (huses : s.Uses key s') (h : s.network.Signed key t) (hd : t.Distinct) :
    s'.network.Signed key t := by
  induction huses with
  | refl => exact h
  | step _ turn suits ih => exact signed_step ih hd suits

/-- **What a splice leaves behind.** A splice is started on a host whose table nobody else writes, and whatever is done
with it and around it, its last handle is dropped at the end. Then every interface has the attachment that it had before
just when the splice was never torn down until then, or none of its plugs that are there at the end set a mark. -/
theorem drop_restores_iff (s : Scene) (budget : Nat) (lane : Budget.Lane) (heap : Budget.Heap)
    (hd : s.network.plane.table.Distinct) {s' : Scene}
    (huses : (s.step ⟨.splice (.start budget), lane, heap⟩).Uses s.network.splices.size s')
    (hlast : s'.network.handlesOf s.network.splices.size = 1) :
    (s'.network.dropSplice s.network.splices.size).plane.table.attachments = s.network.plane.table.attachments ↔
      s'.network.IsActive s.network.splices.size ∨
        ∀ index, ¬ (s'.network.registry s.network.splices.size).IsMarking index := by
  let m : Memory := { s.network.memory with heap := heap, lane := lane }
  have hstart := (s.network.setMemory m).signed_startSplice budget hd
  have hsigned := huses.signed hstart hd
  rw [Network.table_dropSplice _ hlast]
  exact hsigned.tearDown_restores_iff hd

/-- A consumer that plugs, tears down and plugs again, but unplugs by itself what it plugged last. -/
theorem drop_restores_iff_tidy :
    let own : Mac := ⟨[2, 0, 0, 0, 0, 2], rfl⟩
    let s := (start none).run
      [{ act := .host (.addInterface "" (some ⟨[2, 0, 0, 0, 0, 3], rfl⟩) 1500 1) },
        { act := .block (.addBudget 4096 false) }]
    let s' := (s.step { act := .splice (.start 0) }).run
      [{ act := .splice (.plug 0 "" 3 own) }, { act := .splice (.tearDown 0) },
        { act := .splice (.plug 0 "" 3 own) }, { act := .splice (.unplug 0 3) }]
    (s'.network.dropSplice 0).plane.table.attachments = s.network.plane.table.attachments := by
  intro own s s'
  have huses : (s.step { act := .splice (.start 0) }).Uses 0 s' := Uses.refl.run (by simp [Act.Suits])
  have hsize : s.network.splices.size = 0 := by decide +kernel
  have hnone : (s'.network.registry 0).plugs = [] := by decide +kernel
  have hlast : s'.network.handlesOf 0 = 1 := by decide +kernel
  rw [← hsize] at huses hlast hnone ⊢
  refine (drop_restores_iff s 0 .first .standard (by decide +kernel) huses hlast).2 (.inr fun index => ?_)
  exact Registry.not_isMarking_of_plugs_eq_nil hnone index

/-- A consumer that plugs behind the teardown and leaves it at that: with the last handle the splice is gone, and the
mark stays on an interface that nothing was attached to. -/
theorem not_restored_late :
    let own : Mac := ⟨[2, 0, 0, 0, 0, 2], rfl⟩
    let s := (start none).run
      [{ act := .host (.addInterface "" (some ⟨[2, 0, 0, 0, 0, 3], rfl⟩) 1500 1) },
        { act := .block (.addBudget 4096 false) }]
    let s' := (s.step { act := .splice (.start 0) }).run
      [{ act := .splice (.tearDown 0) }, { act := .splice (.plug 0 "" 3 own) }]
    (s.step { act := .splice (.start 0) }).Uses 0 s' ∧ s'.network.handlesOf 0 = 1 ∧
      s.network.plane.table.attachments = [(1, .none)] ∧
      (s'.network.dropSplice 0).plane.table.attachments = [(1, .synthetic)] := by
  intro own s s'
  have huses : (s.step { act := .splice (.start 0) }).Uses 0 s' := Uses.refl.run (by simp [Act.Suits])
  exact ⟨huses, by decide +kernel, by decide +kernel, by decide +kernel⟩

end Scene

end Patchbay
