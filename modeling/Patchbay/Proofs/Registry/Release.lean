import Patchbay.Proofs.Inbox.Agreement
import Patchbay.Proofs.Registry.Tidy

/-!
# `Proofs.Registry.Release` — what goes when a splice is torn down

A splice that is torn down unplugs everything, and what waits in the queues goes unread. Its place in the slot is taken
by what it displaced; so whatever stood in the slot loses a link, and if nobody holds that hook any more, it ends and
lets go of its own plugs, and so on. On every line the queue is left alone, or it is emptied without anything being
counted as taken.

## Contents
* `Memory.GrantsNothing` — blocks only come back;
* `Queue.voided`, `Backplane.Sheds` — lines lose holders, and some lose what waits on them;
* `Network.Ends` — splices that nobody holds any more end; `Network.ends_unlink`;
* `Network.TearsDown`, `IsActive.tearsDown` — what a teardown does to slot, registries and lines.
-/

namespace Patchbay

/-! ## Memory that only comes back -/

namespace Memory

variable {m m' m'' : Memory}

/-- No budget has granted anything in between. -/
def GrantsNothing (m m' : Memory) : Prop :=
  ∀ key kind, m'.allocationsOf key kind = m.allocationsOf key kind

theorem GrantsNothing.refl (m : Memory) : m.GrantsNothing m := fun _ _ => rfl

/-- What grants nothing on the way grants nothing at all. -/
theorem GrantsNothing.trans (h : m.GrantsNothing m') (h' : m'.GrantsNothing m'') : m.GrantsNothing m'' :=
  fun key kind => (h' key kind).trans (h key kind)

/-- So it is with an operation for each entry of a list. -/
theorem GrantsNothing.foldl {α : Type} {f : Memory → α → Memory} (hf : ∀ (m : Memory) a, m.GrantsNothing (f m a))
    (l : List α) (m : Memory) : m.GrantsNothing (l.foldl f m) := by
  induction l generalizing m with
  | nil => exact .refl m
  | cons a rest ih => exact (hf m a).trans (ih (f m a))

/-- A reference that is given back grants nothing. -/
theorem grantsNothing_release (m : Memory) (s : Storage) : m.GrantsNothing (m.release s) := by
  unfold release reclaim
  dsimp only
  split
  · split
    · exact .refl _
    · exact allocationsOf_free _ _
  · exact .refl _

theorem grantsNothing_releaseSegment (m : Memory) (g : Segment) : m.GrantsNothing (m.releaseSegment g) :=
  m.returnHeader.grantsNothing_release g.storage

/-- Nor does a node that goes with its packet. -/
theorem grantsNothing_releaseNode (m : Memory) (node : Node) : m.GrantsNothing (m.releaseNode node) := by
  have hframe (m : Memory) (f : Frame) : m.GrantsNothing (m.releaseFrame f) :=
    .foldl grantsNothing_releaseSegment f.segments m
  have hchain : m.GrantsNothing (m.releaseChain node.chain) := .foldl hframe node.chain.frames m
  exact hchain.trans (allocationsOf_free _ node.charge)

end Memory

/-! ## Lines that are let go -/

/-- The queue when what waited has gone unread. -/
def Queue.voided (q : Queue) : Queue := { q with nodes := [] }

namespace Backplane

variable {p p' p'' : Backplane} {cleared cleared' : Nat → Prop} {plug : Plug}

/-- Lines lose holders. What waits on one of them goes with its last holder, or if it is a line to be cleared, and stays
otherwise; what it counts stays in any case. -/
structure Sheds (cleared : Nat → Prop) (p p' : Backplane) : Prop where
  grants : p.memory.GrantsNothing p'.memory
  size : p'.lines.size = p.lines.size
  line : ∀ key line, p.lines[key]? = some line → ∃ queue, ∃ holders ≤ line.holders,
    p'.lines[key]? = some { line with queue := queue, holders := holders } ∧
      (queue = line.queue ∨ queue = line.queue.voided ∧ (holders = 0 ∨ cleared key))

namespace Sheds

/-- Where nothing happens, nothing is shed. -/
theorem refl (p : Backplane) : p.Sheds cleared p :=
  ⟨.refl _, rfl, fun _ line hline => ⟨line.queue, line.holders, Nat.le_refl _, hline, .inl rfl⟩⟩

/-- The table has no part in it. -/
theorem of_table (p : Backplane) (t : Table) : p.Sheds cleared { p with table := t } := ⟨.refl _, rfl, (refl p).line⟩

/-- Further lines may be cleared without harm. -/
theorem mono (h : p.Sheds cleared p') (himp : ∀ key, cleared key → cleared' key) : p.Sheds cleared' p' := by
  refine ⟨h.grants, h.size, fun key line hline => ?_⟩
  obtain ⟨queue, holders, hle, hline', hqueue⟩ := h.line key line hline
  exact ⟨queue, holders, hle, hline', hqueue.imp_right fun hgone => ⟨hgone.1, hgone.2.imp_right (himp key)⟩⟩

/-- What is shed on the way is shed in the end. -/
theorem trans (h : p.Sheds cleared p') (h' : p'.Sheds cleared p'') : p.Sheds cleared p'' := by
  refine ⟨h.grants.trans h'.grants, h'.size.trans h.size, fun key line hline => ?_⟩
  obtain ⟨queue, holders, hle, hline', hqueue⟩ := h.line key line hline
  obtain ⟨queue', holders', hle', hline'', hqueue'⟩ := h'.line key _ hline'
  refine ⟨queue', holders', hle'.trans hle, hline'', ?_⟩
  -- a line without holders does not get any
  have hnone (hzero : holders = 0 ∨ cleared key) : holders' = 0 ∨ cleared key :=
    hzero.imp_left fun hzero => Nat.eq_zero_of_le_zero (hle'.trans (Nat.le_of_eq hzero))
  rcases hqueue with rfl | ⟨rfl, hgone⟩
  · exact hqueue'
  · rcases hqueue' with rfl | ⟨rfl, -⟩
    · exact .inr ⟨rfl, hnone hgone⟩
    · exact .inr ⟨rfl, hnone hgone⟩

/-- One line is changed like this. -/
theorem setLine {m : Memory} {changed : Line} (hm : p.memory.GrantsNothing m)
    (h : ∀ line, p.lines[plug.key]? = some line → ∃ queue, ∃ holders ≤ line.holders,
      changed = { line with queue := queue, holders := holders } ∧
        (queue = line.queue ∨ queue = line.queue.voided ∧ (holders = 0 ∨ cleared plug.key))) :
    p.Sheds cleared { p.setLine plug changed with memory := m } := by
  refine ⟨hm, Array.size_setIfInBounds, fun key line hline => ?_⟩
  show ∃ queue, ∃ holders ≤ _, (p.lines.setIfInBounds plug.key changed)[key]? = _ ∧ _
  have hlt : key < p.lines.size := (Array.getElem?_eq_some_iff.1 hline).1
  rw [Array.getElem?_setIfInBounds]
  split
  · rename_i heq
    subst heq
    obtain ⟨queue, holders, hle, rfl, hqueue⟩ := h line hline
    exact ⟨queue, holders, hle, if_pos hlt, hqueue⟩
  · exact (refl p).line key line hline

end Sheds

theorem line_of_getElem? {line : Line} (h : p.lines[plug.key]? = some line) : p.line plug = line := by
  rw [Backplane.line, Array.getD_eq_getD_getElem?, h]
  rfl

/-- To clear a queue grants nothing, for each node only goes. -/
theorem grantsNothing_clear (q : Queue) (m : Memory) : m.GrantsNothing (q.clear m).2.2 :=
  .foldl Memory.grantsNothing_releaseNode q.nodes m

/-- A line that is cleared is one that may be. -/
theorem sheds_clear (p : Backplane) (hclears : cleared plug.key) :
    p.Sheds cleared (p.onQueue plug Queue.clear).2 := by
  refine Sheds.setLine (grantsNothing_clear _ _) fun line hline => ?_
  rw [line_of_getElem? hline]
  exact ⟨line.queue.voided, line.holders, Nat.le_refl _, rfl, .inr ⟨rfl, .inr hclears⟩⟩

/-- The last holder takes with it what waits. -/
theorem sheds_dropPlug (p : Backplane) (plug : Plug) : p.Sheds cleared (p.dropPlug plug) := by
  unfold dropPlug
  dsimp only
  split
  · rename_i hlast
    unfold onQueue
    dsimp only
    rw [setLine_setLine]
    refine Sheds.setLine ((grantsNothing_clear _ _).trans (Memory.allocationsOf_free _ _)) fun line hline => ?_
    have hlt : plug.key < p.lines.size := (Array.getElem?_eq_some_iff.1 hline).1
    rw [line_of_getElem? hline] at hlast
    rw [line_setLine hlt, line_of_getElem? hline]
    exact ⟨line.queue.voided, line.holders - 1, Nat.sub_le _ _, rfl, .inr ⟨rfl, .inl (Nat.sub_eq_zero_of_le hlast)⟩⟩
  · refine Sheds.setLine (.refl _) fun line hline => ?_
    rw [line_of_getElem? hline]
    exact ⟨line.queue, line.holders - 1, Nat.sub_le _ _, rfl, .inl rfl⟩

/-- Plugs that go one after the other shed what waits at them. -/
theorem sheds_dropPlugs (p : Backplane) (plugs : List Plug) : p.Sheds cleared (plugs.foldl dropPlug p) := by
  induction plugs generalizing p with
  | nil => exact .refl p
  | cons plug rest ih => exact (p.sheds_dropPlug plug).trans (ih _)

/-- An unplugged id sheds what waits on its line. -/
theorem sheds_unplug (r : Registry) (p : Backplane) (id : Nat) (h : ∀ plug ∈ r.plugs, cleared plug.key) :
    p.Sheds cleared (r.unplug p id).2.2 := by
  unfold Registry.unplug
  split
  · exact .refl p
  · rename_i plug hfind
    have hclears : cleared plug.key := h plug (List.mem_of_find?_eq_some hfind)
    exact ((Sheds.of_table p _).trans (sheds_clear _ hclears)).trans (sheds_dropPlug _ plug)

/-- So do many. -/
theorem sheds_unplugEach (r : Registry) (p : Backplane) (ids : List Nat) (h : ∀ plug ∈ r.plugs, cleared plug.key) :
    p.Sheds cleared (r.unplugEach p ids).2.2 := by
  induction ids generalizing r p with
  | nil => exact .refl p
  | cons id rest ih =>
    refine (sheds_unplug r p id h).trans (ih _ _ fun plug hplug => ?_)
    exact h plug (r.plugs_unplug_subset p id hplug)

end Backplane

/-- A registry that has unplugged everything is as good as new. -/
theorem Registry.Sound.unplugEverything {r : Registry} (h : r.Sound) (p : Backplane) :
    (r.unplugEverything p).2.1 = {} := by
  have hnone := Registry.plugs_unplugEverything h p
  have hcount : (r.unplugEverything p).2.1.count = (r.unplugEverything p).2.1.plugs.length :=
    (h.unplugEach p r.ids).count_eq
  generalize (r.unplugEverything p).2.1 = emptied at hnone hcount
  obtain ⟨plugs, count⟩ := emptied
  obtain rfl : plugs = [] := hnone
  obtain rfl : count = 0 := hcount
  rfl

/-! ## Splices that end -/

/-- A splice loses links. Its registry stays as it is, or is given up because nobody holds the splice any more. -/
structure Splice.Ends (s s' : Splice) : Prop where
  handles : s'.handles = s.handles
  links : s'.links ≤ s.links
  registry : s'.registry = s.registry ∨ s'.registry = {} ∧ s'.handles = 0 ∧ s'.links = 0

/-- A splice that loses more and more comes to its end. -/
theorem Splice.Ends.trans {s s' s'' : Splice} (h : s.Ends s') (h' : s'.Ends s'') : s.Ends s'' where
  handles := h'.handles.trans h.handles
  links := h'.links.trans h.links
  registry := by
    rcases h'.registry with hsame' | hgone'
    · rcases h.registry with hsame | ⟨hempty, hhandles, hlinks⟩
      · exact .inl (hsame'.trans hsame)
      · exact .inr ⟨hsame'.trans hempty, h'.handles.trans hhandles, Nat.eq_zero_of_le_zero (hlinks ▸ h'.links)⟩
    · exact .inr hgone'

namespace Network

variable {n n' n'' : Network} {key : Nat} {s : Splice}

/-- Some splices lose links, and those that nobody holds any more end. -/
structure Ends (n n' : Network) : Prop where
  slot : n'.slot = n.slot
  plane : n.plane.Sheds (fun _ => False) n'.plane
  size : n'.splices.size = n.splices.size
  splice : ∀ (key : Nat) (s : Splice), n.splices[key]? = some s → ∃ s', n'.splices[key]? = some s' ∧ s.Ends s'

/-- To do nothing ends no splice. -/
theorem Ends.refl (n : Network) : n.Ends n :=
  ⟨rfl, .refl _, rfl, fun _ s hs => ⟨s, hs, rfl, Nat.le_refl _, .inl rfl⟩⟩

/-- Splices that end on the way have ended in the end. -/
theorem Ends.trans (h : n.Ends n') (h' : n'.Ends n'') : n.Ends n'' where
  slot := h'.slot.trans h.slot
  plane := h.plane.trans h'.plane
  size := h'.size.trans h.size
  splice := by
    intro key s hs
    obtain ⟨s', hs', hends⟩ := h.splice key s hs
    obtain ⟨s'', hs'', hends'⟩ := h'.splice key s' hs'
    exact ⟨s'', hs'', hends.trans hends'⟩

/-- One splice is changed like this. -/
theorem ends_modifySplice {p : Backplane} {f : Splice → Splice} (hplane : n.plane.Sheds (fun _ => False) p)
    (hf : ∀ s, n.splices[key]? = some s → s.Ends (f s)) : n.Ends (modifySplice { n with plane := p } key f) where
  slot := rfl
  plane := hplane
  size := size_modifySplice _ key f
  splice := by
    intro other s hs
    rw [getElem?_modifySplice]
    split
    · rename_i heq
      exact ⟨f s, congrArg (Option.map f) hs, hf s (heq ▸ hs)⟩
    · exact (Ends.refl n).splice other s hs

theorem ends_loseLink (n : Network) (key : Nat) :
    n.Ends (n.modifySplice key fun s => { s with links := s.links - 1 }) :=
  ends_modifySplice (.refl n.plane) fun _ _ => ⟨rfl, Nat.sub_le _ _, .inl rfl⟩

/-- Splices that go may take others along, and those only end as well. -/
theorem ends_disposeWithin (fuel : Nat) (n : Network) (key : Nat) : n.Ends (disposeWithin fuel n key) := by
  -- on the fuel, since the end of one splice may end the one before it
  induction fuel generalizing n key with
  | zero => exact .refl n
  | succ fuel ih =>
    unfold disposeWithin
    split
    · exact .refl n
    rename_i t ht
    split
    · rename_i hnobody
      have habandon : n.Ends (n.abandon key) := by
        refine ends_modifySplice (n.plane.sheds_dropPlugs _) fun s hs => ⟨rfl, Nat.le_refl _, .inr ⟨rfl, ?_⟩⟩
        obtain rfl := Option.some.inj (ht.symm.trans hs)
        exact hnobody
      dsimp only
      split
      · exact habandon
      · exact (habandon.trans (ends_loseLink _ _)).trans (ih _ _)
    · exact .refl n

/-- A hook place that is given up may end splices, and starts none. -/
theorem ends_unlink (n : Network) (hook : Option Hook) : n.Ends (n.unlink hook) := by
  unfold unlink
  split
  · exact .refl n
  · exact (n.ends_loseLink _).trans (ends_disposeWithin _ _ _)

/-- A registry stays as it is, or is given up because nobody holds the splice any more. -/
theorem Ends.registry (h : n.Ends n') (key : Nat) :
    n'.registry key = n.registry key ∨ n'.registry key = {} ∧ n'.handlesOf key = 0 ∧ n'.linksOf key = 0 := by
  cases hs : n.splices[key]? with
  | none =>
    have hnone : n'.splices[key]? = none := by
      rw [Array.getElem?_eq_none_iff, h.size, ← Array.getElem?_eq_none_iff]
      exact hs
    exact .inl (registry_congr (hnone.trans hs.symm))
  | some s =>
    obtain ⟨s', hs', hends⟩ := h.splice key s hs
    rw [registry_eq hs, registry_eq hs', handlesOf, linksOf, hs']
    exact hends.registry

/-! ## A splice that is torn down -/

/-- One splice puts back into the slot what it remembers, and unplugs everything. Others keep what they have plugged but
those that nobody holds any more, which give it up. -/
structure TearsDown (n : Network) (key : Nat) (n' : Network) : Prop where
  slot : n'.slot = n.previous? key
  registry : n'.registry key = {}
  others : ∀ other, other ≠ key →
    n'.registry other = n.registry other ∨ n'.registry other = {} ∧ n'.handlesOf other = 0 ∧ n'.linksOf other = 0
  plane : n.plane.Sheds (fun line => ∃ plug ∈ (n.registry key).plugs, plug.key = line) n'.plane

theorem IsActive.tearsDown (h : n.IsActive key) (hsound : (n.registry key).Sound) :
    n.TearsDown key (n.tearDown key) := by
  obtain ⟨s, hs, hactive⟩ := h
  let n₁ := n.modifySplice key fun s => { s with active := false }
  let hook := n₁.previous? key
  let n₂ : Network := { n₁.link hook with slot := hook }
  let n₃ := n₂.unlink (n₁.link hook).slot
  have hdown : n.tearDown key = (n₃.unplugEverything key).2 := by
    unfold tearDown
    rw [hs]
    dsimp only
    rw [if_pos hactive]
    rfl
  have hends : n₂.Ends n₃ := n₂.ends_unlink _
  have hplane : n₂.plane = n.plane := n₁.plane_link hook
  -- up to here nothing but links has changed
  have hold (other : Nat) : n₂.registry other = n.registry other :=
    (n₁.registry_link hook other).trans (n.registry_modifySplice_of key other fun _ => rfl)
  -- the splice itself may have ended with its place in the slot, and has nothing plugged then
  have hkept : n₃.registry key = n.registry key ∨ n₃.registry key = {} := by
    rw [← hold]
    exact (hends.registry key).imp_right And.left
  have hsub : (n₃.registry key).plugs ⊆ (n.registry key).plugs := by
    rcases hkept with hsame | hempty
    · rw [hsame]
      exact List.Subset.refl _
    · rw [hempty]
      exact List.nil_subset _
  have hsound₃ : (n₃.registry key).Sound := by
    rcases hkept with hsame | hempty
    · rw [hsame]
      exact hsound
    · rw [hempty]
      exact .empty
  obtain ⟨s₃, hs₃⟩ : ∃ s₃, n₃.splices[key]? = some s₃ := by
    have hsize : n₃.splices.size = n.splices.size :=
      hends.size.trans ((n₁.size_link hook).trans (n.size_modifySplice key _))
    have hlt : key < n₃.splices.size := hsize ▸ (Array.getElem?_eq_some_iff.1 hs).1
    exact ⟨_, Array.getElem?_eq_getElem hlt⟩
  obtain ⟨hget, hplane'⟩ := registry_onRegistry_self hs₃ Registry.unplugEverything
  rw [hdown]
  refine ⟨?_, ?_, fun other hne => ?_, ?_⟩
  · have hslot : (n₃.unplugEverything key).2.slot = n₃.slot := (n₃.sameSeats_onRegistry key _).slot
    rw [hslot, hends.slot]
    exact n.previous?_modifySplice key key fun _ => rfl
  · rw [unplugEverything, registry_eq hget]
    exact hsound₃.unplugEverything n₃.plane
  · have hother : (n₃.unplugEverything key).2.splices[other]? = n₃.splices[other]? :=
      getElem?_onRegistry_of_ne (Ne.symm hne)
    rw [registry_congr hother, handlesOf, linksOf, hother, ← hold]
    exact hends.registry other
  · rw [unplugEverything, hplane', ← hplane]
    refine (hends.plane.mono fun _ hfalse => hfalse.elim).trans ?_
    exact Backplane.sheds_unplugEach _ _ _ fun plug hplug => ⟨plug, hsub hplug, rfl⟩

end Network

end Patchbay
